import Mathlib
import DracVms.Library.Text

namespace DracVms.PosixShell

open List

/-- Text is read one character at a time, as the shell's token recogniser does. -/
abbrev Text := List Char

/-- Why a character stands for itself: unprotected, between quotes, or after a backslash. -/
inductive Protection where
  | bare
  | quoted
  | escaped
deriving DecidableEq, Repr

/-- What the recogniser reports, in the order of the text. -/
inductive Event where
  | literal (protection : Protection) (c : Char)
  | quote
  | joined
  | parameter (quoted : Bool) (name : Text)
  | opens (quoted : Bool) (opener : Text)
  | closes
  | wordEnd
  | ioNumber
  | operator (text : Text)
deriving DecidableEq, Repr

/-- The constructs a text may be inside of, innermost first on the reader's stack. -/
inductive Context where
  | single
  | double
  | brace
  | command
  | backquote
  | subshell
  | comment
deriving DecidableEq, Repr

/-- A character whose meaning depends on the next one. -/
inductive Pending where
  | none
  | escape
  | dollar
  | name (start : Text)
  | operator (start : Text)
deriving DecidableEq, Repr

/-- Whether a word has begun, and whether it could still be an IO number. -/
inductive WordState where
  | outside
  | digits
  | inside
deriving DecidableEq, Repr

structure Reader where
  stack : List Context
  pending : Pending
  word : WordState
deriving DecidableEq, Repr

def start : Reader := ⟨[], .none, .outside⟩

def isNameStart (c : Char) : Bool := c.isAlpha || c == '_'

def isNameChar (c : Char) : Bool := c.isAlphanum || c == '_'

/-- The one-character parameters: positional digits and the special ones. -/
def isSpecialParameter (c : Char) : Bool :=
  c.isDigit || c ∈ ['@', '*', '#', '?', '-', '$', '!']

def operators : List Text :=
  ["&&".toList, "||".toList, ";;".toList, "<<".toList, ">>".toList, "<&".toList,
   ">&".toList, "<>".toList, ">|".toList, "<<-".toList]

/-- A double-quoted part and a parameter's braces protect the blanks and operators in them. -/
def Reader.protects (r : Reader) : Bool :=
  match r.stack with
  | .double :: _ | .brace :: _ => true
  | _ => false

def Reader.endWord (r : Reader) : List Event :=
  match r.word with
  | .outside => []
  | _ => [.wordEnd]

/-- A redirection right after a word of digits takes the word as its IO number. -/
def Reader.endWordBefore (r : Reader) (c : Char) : List Event :=
  if r.word = .digits ∧ (c = '<' ∨ c = '>') then [.ioNumber] else r.endWord

def Reader.enter (r : Reader) (context : Context) (word : WordState) : Reader :=
  ⟨context :: r.stack, .none, word⟩

def Reader.leave (r : Reader) : Reader :=
  ⟨r.stack.tail, .none, .inside⟩

/-- A backquote closes the innermost backquoted command that is open, else it opens one. -/
def backquoteTail : List Context → Option (List Context)
  | [] => none
  | .backquote :: outer => some outer
  | _ :: outer => backquoteTail outer

def readBackquote (r : Reader) : Reader × List Event :=
  match backquoteTail r.stack with
  | some outer => (⟨outer, .none, .inside⟩, r.endWord ++ [.closes])
  | none => (r.enter .backquote .outside, [.opens r.protects ['`']])

def readProtected (r : Reader) (c : Char) : Reader × List Event :=
  if c = '\\' then ({ r with pending := .escape }, [])
  else if c = '$' then ({ r with pending := .dollar }, [])
  else if c = '`' then readBackquote r
  else ({ r with pending := .none }, [.literal .quoted c])

def readBare (r : Reader) (c : Char) : Reader × List Event :=
  if c = '\'' then (r.enter .single .inside, [.quote])
  else if c = '"' then (r.enter .double .inside, [.quote])
  else if c = '\\' then ({ r with pending := .escape }, [])
  else if c = '$' then ({ r with pending := .dollar, word := .inside }, [])
  else if c = '`' then readBackquote r
  else if c = ' ' ∨ c = '\t' then (⟨r.stack, .none, .outside⟩, r.endWord)
  else if c = '\n' then (⟨r.stack, .none, .outside⟩, r.endWord ++ [.operator [c]])
  else if c ∈ ['|', '&', ';', '<', '>'] then
    (⟨r.stack, .operator [c], .outside⟩, r.endWordBefore c)
  else if c = '(' then (r.enter .subshell .outside, r.endWord ++ [.operator [c]])
  else if c = ')' then
    match r.stack with
    | .command :: _ => (r.leave, r.endWord ++ [.closes])
    | .subshell :: outer => (⟨outer, .none, .outside⟩, r.endWord ++ [.operator [c]])
    | _ => (⟨r.stack, .none, .outside⟩, r.endWord ++ [.operator [c]])
  else if c = '#' ∧ r.word = .outside then (r.enter .comment .outside, [])
  else
    (⟨r.stack, .none, if c.isDigit ∧ r.word ≠ .inside then .digits else .inside⟩,
      [.literal .bare c])

/-- One character with nothing pending. -/
def readPlain (r : Reader) (c : Char) : Reader × List Event :=
  match r.stack with
  | .single :: _ =>
    if c = '\'' then (r.leave, [.quote]) else ({ r with pending := .none }, [.literal .quoted c])
  | .double :: _ => if c = '"' then (r.leave, [.quote]) else readProtected r c
  | .brace :: _ =>
    if c = '}' then (r.leave, [.closes])
    else if c = '"' then (r.enter .double .inside, [.quote])
    else if c = '\'' then (r.enter .single .inside, [.quote])
    else readProtected r c
  | .comment :: outer =>
    if c = '\n' then (⟨outer, .none, .outside⟩, [.operator [c]])
    else ({ r with pending := .none }, [])
  | _ => readBare r c

/-- Inside double quotes a backslash keeps itself unless the next character is special there. -/
def escapable (c : Char) : Bool := c ∈ ['$', '`', '"', '\\']

def readEscape (r : Reader) (c : Char) : Reader × List Event :=
  if c = '\n' then ({ r with pending := .none }, [.joined])
  else if r.protects && !escapable c then
    ({ r with pending := .none }, [.literal .quoted '\\', .literal .quoted c])
  else (⟨r.stack, .none, .inside⟩, [.literal .escaped c])

/-- The protection of a dollar sign that starts no expansion. -/
def Reader.ownProtection (r : Reader) : Protection :=
  if r.protects then .quoted else .bare

def readDollar (r : Reader) (c : Char) : Reader × List Event :=
  if isNameStart c then ({ r with pending := .name [c] }, [])
  else if isSpecialParameter c then
    ({ r with pending := .none }, [.parameter r.protects [c]])
  else if c = '(' then (r.enter .command .outside, [.opens r.protects ['$', '(']])
  else if c = '{' then (r.enter .brace .inside, [.opens r.protects ['$', '{']])
  else
    let next := readPlain { r with pending := .none } c
    (next.1, .literal r.ownProtection '$' :: next.2)

def readName (r : Reader) (name : Text) (c : Char) : Reader × List Event :=
  if isNameChar c then ({ r with pending := .name (name ++ [c]) }, [])
  else
    let next := readPlain { r with pending := .none } c
    (next.1, .parameter r.protects name :: next.2)

def readOperator (r : Reader) (text : Text) (c : Char) : Reader × List Event :=
  if text ++ [c] ∈ operators then ({ r with pending := .operator (text ++ [c]) }, [])
  else
    let next := readPlain { r with pending := .none } c
    (next.1, .operator text :: next.2)

def step (r : Reader) (c : Char) : Reader × List Event :=
  match r.pending with
  | .none => readPlain r c
  | .escape => readEscape r c
  | .dollar => readDollar r c
  | .name name => readName r name c
  | .operator text => readOperator r text c

def run (r : Reader) : Text → Reader × List Event
  | [] => (r, [])
  | c :: rest =>
    let next := step r c
    let final := run next.1 rest
    (final.1, next.2 ++ final.2)

/-- What is still pending when the text ends. -/
def finish (r : Reader) : List Event :=
  match r.pending with
  | .none => r.endWord
  | .escape => [.literal .bare '\\', .wordEnd]
  | .dollar => [.literal .bare '$', .wordEnd]
  | .name name => [.parameter false name, .wordEnd]
  | .operator text => [.operator text]

/-- The tokens of a whole text; none when it ends inside a quotation or a substitution. -/
def readText (text : Text) : Option (List Event) :=
  let final := run start text
  if final.1.stack = [] ∨ final.1.stack = [.comment] then some (final.2 ++ finish final.1) else none

/-- Quote removal: the marks go, and what they protected stays protected. -/
def quoteRemoval (events : List Event) : List Event :=
  events.filterMap fun event =>
    match event with
    | .quote => none
    | .joined => none
    | .literal .escaped c => some (.literal .quoted c)
    | event => some event

/-- A reader inside a construct, in the middle of a word. -/
def within (context : Context) (outer : List Context) : Reader :=
  ⟨context :: outer, .none, .inside⟩

theorem run_append (r : Reader) (first second : Text) : run r (first ++ second) =
      ((run (run r first).1 second).1, (run r first).2 ++ (run (run r first).1 second).2) := by
  induction first generalizing r with
  | nil => rfl
  | cons c rest ih =>
    simp only [cons_append, run, ih, append_assoc]

/-- Two readings in sequence, each known on its own. -/
theorem run_append_of (r middle final : Reader) (first second : Text) (before after : List Event)
    (left : run r first = (middle, before)) (right : run middle second = (final, after)) :
    run r (first ++ second) = (final, before ++ after) := by
  rw [run_append, left, right]

@[simp] theorem quoteRemoval_append (first second : List Event) :
    quoteRemoval (first ++ second) = quoteRemoval first ++ quoteRemoval second :=
  filterMap_append

@[simp] theorem quoteRemoval_quoted (text : Text) :
    quoteRemoval (text.map (Event.literal .quoted)) = text.map (Event.literal .quoted) := by
  induction text with
  | nil => rfl
  | cons c rest ih =>
    rw [map_cons, show quoteRemoval (Event.literal .quoted c :: _) =
      Event.literal .quoted c :: quoteRemoval _ from rfl, ih]

/-- The idiom that carries a quote mark through a single-quoted text. -/
def embedQuote (c : Char) : Text :=
  if c = '\'' then ['\'', '\\', '\'', '\''] else [c]

theorem run_single_embedded (text : Text) :
    ∃ events, run (within .single []) (text.flatMap embedQuote) = (within .single [], events) ∧
      quoteRemoval events = text.map (Event.literal .quoted) := by
  induction text with
  | nil => exact ⟨[], rfl, rfl⟩
  | cons c rest ih =>
    obtain ⟨events, reading, removed⟩ := ih
    by_cases mark : c = '\''
    · subst mark
      refine ⟨[.quote, .literal .escaped '\'', .quote] ++ events, ?_, ?_⟩
      · have around : run (within .single []) (embedQuote '\'') =
            (within .single [], [.quote, .literal .escaped '\'', .quote]) := rfl
        exact run_append_of _ _ _ _ _ _ _ around reading
      · rw [quoteRemoval_append, removed]
        rfl
    · refine ⟨[.literal .quoted c] ++ events, ?_, ?_⟩
      · have one : run (within .single []) (embedQuote c) =
            (within .single [], [.literal .quoted c]) := by
          simp only [embedQuote, mark, ↓reduceIte, run, step, within, readPlain, append_nil]
        exact run_append_of _ _ _ _ _ _ _ one reading
      · rw [quoteRemoval_append, removed]
        rfl

/-- A character with no meaning of its own between double quotes. -/
def plain (c : Char) : Bool := c ∉ ['"', '`', '\\', '$']

/-- What may follow a dollar sign to make it an expansion. -/
def startsExpansion (c : Char) : Bool :=
  isNameStart c || isSpecialParameter c || c == '(' || c == '{'

/-- Whether a character keeps itself between double quotes, given the one after it. -/
def keptBefore (c : Char) (next : Option Char) : Bool :=
  if c = '\\' then next.any fun d => !escapable d && d != '\n'
  else if c = '$' then next.all fun d => !startsExpansion d
  else plain c

/-- A text every character of which keeps itself between double quotes. -/
def inert : Text → Bool
  | [] => true
  | c :: rest => keptBefore c rest.head? && inert rest

variable (outer : List Context)

theorem run_double_plain (text : Text) (safe : text.all plain) :
    run (within .double outer) text = (within .double outer, text.map (Event.literal .quoted)) := by
  induction text with
  | nil => rfl
  | cons c rest ih =>
    rw [all_cons, Bool.and_eq_true] at safe
    have here : run (within .double outer) [c] =
        (within .double outer, [Event.literal .quoted c]) := by
      have same := safe.1
      simp only [plain, mem_cons, not_mem_nil, or_false, not_or, decide_eq_true_eq] at same
      simp only [run, step, within, readPlain, readProtected, same, ↓reduceIte, append_nil]
    exact run_append_of _ _ _ [c] rest _ _ here (ih safe.2)

variable (c : Char)

theorem step_double_plain (safe : plain c) :
    step (within .double outer) c = (within .double outer, [.literal .quoted c]) := by
  simp only [plain, mem_cons, not_mem_nil, or_false, not_or, decide_eq_true_eq] at safe
  simp only [step, within, readPlain, readProtected, safe, ↓reduceIte]

variable (rest : Text)

/-- A backslash before an unremarkable character is itself, and so is that character. -/
theorem run_escape_kept (ordinary : escapable c = false) (sameLine : c ≠ '\n') :
    run ⟨.double :: outer, .escape, .inside⟩ (c :: rest) =
      ((run (within .double outer) (c :: rest)).1,
        .literal .quoted '\\' :: (run (within .double outer) (c :: rest)).2) := by
  have safe : plain c := by
    simp only [escapable, mem_cons, not_mem_nil, or_false, decide_eq_false_iff_not,
      not_or] at ordinary
    simp only [plain, mem_cons, not_mem_nil, or_false, not_or, decide_eq_true_eq]
    exact ⟨ordinary.2.2.1, ordinary.2.1, ordinary.2.2.2, ordinary.1⟩
  rw [run, run, step_double_plain outer c safe]
  simp only [step, readEscape, sameLine, Reader.protects, ordinary, Bool.not_false, Bool.and_self,
    ↓reduceIte, within, cons_append, nil_append]

theorem run_dollar_kept (ordinary : startsExpansion c = false) :
    run ⟨.double :: outer, .dollar, .inside⟩ (c :: rest) =
      ((run (within .double outer) (c :: rest)).1,
        .literal .quoted '$' :: (run (within .double outer) (c :: rest)).2) := by
  simp only [startsExpansion, Bool.or_eq_false_iff, beq_eq_false_iff_ne] at ordinary
  simp only [run, step, readDollar, ordinary.1.1.1, ordinary.1.1.2, ordinary.1.2, ordinary.2,
    within, Reader.ownProtection, Reader.protects, Bool.false_eq_true, ↓reduceIte, cons_append]

theorem run_name_reported (name text : Text) :
    ∃ found later, (run ⟨.double :: outer, .name name, .inside⟩ (text ++ ['"'])).2 =
      .parameter true found :: later := by
  induction text generalizing name with
  | nil => exact ⟨name, [.quote], rfl⟩
  | cons c rest ih =>
    by_cases more : isNameChar c
    · obtain ⟨found, later, reported⟩ := ih (name ++ [c])
      refine ⟨found, later, ?_⟩
      simp only [cons_append, run, step, readName, more, ↓reduceIte, nil_append]
      exact reported
    · refine ⟨name, ?_⟩
      simp only [cons_append, run, step, readName, more, Bool.false_eq_true, ↓reduceIte,
        Reader.protects]
      exact ⟨_, rfl⟩

theorem run_dollar_expands (expands : startsExpansion c = true) (later : List Event) :
    (run ⟨.double :: outer, .dollar, .inside⟩ (c :: rest ++ ['"'])).2 ≠
      .literal .quoted '$' :: later := by
  by_cases named : isNameStart c
  · obtain ⟨found, after, reported⟩ := run_name_reported outer [c] rest
    have reading : (run ⟨.double :: outer, .dollar, .inside⟩ (c :: rest ++ ['"'])).2 =
        .parameter true found :: after := by
      rw [← reported]
      simp only [cons_append, run, step, readDollar, named, ↓reduceIte, nil_append]
    rw [reading]
    simp
  · by_cases special : isSpecialParameter c
    · simp only [cons_append, run, step, readDollar, named, special, Bool.false_eq_true, ↓reduceIte]
      simp
    · simp only [startsExpansion, named, special, Bool.or_eq_true, beq_iff_eq, Bool.false_eq_true,
        false_or] at expands
      rcases expands with rfl | rfl
      · intro same
        have head : Event.opens true ['$', '('] :: _ = Event.literal .quoted '$' :: later := same
        simp at head
      · intro same
        have head : Event.opens true ['$', '{'] :: _ = Event.literal .quoted '$' :: later := same
        simp at head

theorem run_backslash_escapes (escapes : c = '\n' ∨ escapable c = true) (later : List Event) :
    (run (within .double outer) ('\\' :: c :: rest)).2 ≠ .literal .quoted '\\' :: later := by
  intro same
  have opened : run (within .double outer) ('\\' :: c :: rest) =
      run ⟨.double :: outer, .escape, .inside⟩ (c :: rest) := rfl
  rw [opened, run] at same
  by_cases newline : c = '\n'
  · simp only [step, readEscape, newline, ↓reduceIte] at same
    simp at same
  · have special := escapes.resolve_left newline
    simp only [step, readEscape, newline, Reader.protects, special, Bool.not_true, Bool.and_false,
      Bool.false_eq_true, ↓reduceIte] at same
    simp at same

/-- A closing mark or a backquote is never reported as itself. -/
theorem run_mark_not_literal (mark : c = '"' ∨ c = '`') (later : List Event) :
    (run (within .double outer) (c :: rest)).2 ≠ .literal .quoted c :: later := by
  intro same
  rcases mark with rfl | rfl
  · have head : Event.quote :: _ = Event.literal .quoted '"' :: later := same
    simp at head
  · cases nested : backquoteTail (.double :: outer) with
    | none =>
      simp only [run, step, within, readPlain, readProtected, readBackquote, nested] at same
      simp at same
    | some enclosing =>
      simp only [run, step, within, readPlain, readProtected, readBackquote, nested,
        Reader.endWord] at same
      simp at same

theorem plain_of_mem_inert (slash : c ≠ '\\') (dollar : c ≠ '$') (kept : inert (c :: rest) = true) :
    plain c = true ∧ inert rest = true := by
  simpa only [inert, keptBefore, slash, dollar, ↓reduceIte, Bool.and_eq_true] using kept

theorem run_double_inert (text : Text) (safe : inert text = true) :
    run (within .double outer) (text ++ ['"']) =
      (⟨outer, .none, .inside⟩, text.map (Event.literal .quoted) ++ [.quote]) := by
  induction text with
  | nil => rfl
  | cons c rest ih =>
    by_cases slash : c = '\\'
    · subst slash
      cases rest with
      | nil => cases safe
      | cons d more =>
        simp only [inert, keptBefore, ↓reduceIte, List.head?_cons, Option.any_some,
          Bool.and_eq_true, Bool.not_eq_true', bne_iff_ne] at safe
        have tail := ih (by simp only [inert, Bool.and_eq_true]; exact safe.2)
        have reading := run_escape_kept outer d (more ++ ['"']) safe.1.1 safe.1.2
        rw [cons_append] at tail
        rw [tail] at reading
        exact reading
    · by_cases dollar : c = '$'
      · subst dollar
        cases rest with
        | nil => rfl
        | cons d more =>
          simp only [inert, keptBefore, slash, ↓reduceIte, List.head?_cons, Option.all_some,
            Bool.and_eq_true, Bool.not_eq_true'] at safe
          have tail := ih (by simp only [inert, Bool.and_eq_true]; exact safe.2)
          have reading := run_dollar_kept outer d (more ++ ['"']) safe.1
          rw [cons_append] at tail
          rw [tail] at reading
          exact reading
      · have split := plain_of_mem_inert c rest slash dollar safe
        have tail := ih split.2
        rw [cons_append, run, step_double_plain outer c split.1, tail]
        rfl

theorem run_double_not_inert (text : Text) (active : inert text = false) :
    (run (within .double outer) (text ++ ['"'])).2 ≠
      text.map (Event.literal .quoted) ++ [.quote] := by
  induction text with
  | nil => cases active
  | cons c rest ih =>
    intro same
    rw [map_cons, cons_append] at same
    by_cases slash : c = '\\'
    · subst slash
      cases rest with
      | nil =>
        have head : [Event.literal .escaped '"'] = [.literal .quoted '\\', .quote] := same
        cases head
      | cons d more =>
        by_cases escapes : d = '\n' ∨ escapable d = true
        · exact run_backslash_escapes outer d (more ++ ['"']) escapes _ same
        · rw [not_or, Bool.not_eq_true] at escapes
          have stillActive : inert (d :: more) = false := by
            simpa only [inert, keptBefore, ↓reduceIte, List.head?_cons, Option.any_some,
              escapes.2, bne_iff_ne.mpr escapes.1, Bool.not_false, Bool.and_self,
              Bool.true_and] using active
          have whole : (run (within .double outer) ('\\' :: d :: more ++ ['"'])).2 =
              .literal .quoted '\\' :: (run (within .double outer) (d :: more ++ ['"'])).2 :=
            congrArg Prod.snd (run_escape_kept outer d (more ++ ['"']) escapes.2 escapes.1)
          rw [cons_append] at whole
          rw [whole] at same
          exact ih stillActive (List.cons.inj same).2
    · by_cases dollar : c = '$'
      · subst dollar
        cases rest with
        | nil => cases active
        | cons d more =>
          by_cases expands : startsExpansion d = true
          · exact run_dollar_expands outer d more expands _ same
          · have kept : startsExpansion d = false := by simpa using expands
            have stillActive : inert (d :: more) = false := by
              simpa only [inert, keptBefore, slash, ↓reduceIte, List.head?_cons,
                Option.all_some, kept, Bool.not_false, Bool.true_and] using active
            have whole : (run (within .double outer) ('$' :: d :: more ++ ['"'])).2 =
                .literal .quoted '$' :: (run (within .double outer) (d :: more ++ ['"'])).2 :=
              congrArg Prod.snd (run_dollar_kept outer d (more ++ ['"']) kept)
            rw [cons_append] at whole
            rw [whole] at same
            exact ih stillActive (List.cons.inj same).2
      · by_cases safe : plain c = true
        · have stillActive : inert rest = false := by
            simpa only [inert, keptBefore, slash, dollar, ↓reduceIte, safe, Bool.true_and]
              using active
          rw [cons_append, run, step_double_plain outer c safe] at same
          exact ih stillActive (List.cons.inj same).2
        · have mark : c = '"' ∨ c = '`' := by
            simp only [plain, mem_cons, not_mem_nil, or_false, slash, dollar,
              decide_eq_true_eq, not_not] at safe
            exact safe
          exact run_mark_not_literal outer c (rest ++ ['"']) mark _ same

theorem run_double_verbatim_iff (text : Text) : (run (within .double outer) (text ++ ['"'])).2 =
      text.map (Event.literal .quoted) ++ [.quote] ↔ inert text = true := by
  constructor
  · intro same
    by_contra active
    exact run_double_not_inert outer text (by simpa using active) same
  · intro safe
    rw [run_double_inert outer text safe]

theorem inert_plain_append (safe rest : Text) (all : safe.all plain = true) :
    inert (safe ++ rest) = inert rest := by
  induction safe with
  | nil => rfl
  | cons c more ih =>
    rw [all_cons, Bool.and_eq_true] at all
    have ordinary : c ≠ '\\' ∧ c ≠ '$' := by
      constructor <;> rintro rfl <;> simp [plain] at all
    rw [cons_append, inert, keptBefore, if_neg ordinary.1, if_neg ordinary.2, all.1,
      Bool.true_and, ih all.2]

/-- An ordinary character separates what comes before it from what comes after. -/
theorem inert_append_cons (before : Text) (c : Char) (after : Text) (safe : plain c = true) :
    inert (before ++ c :: after) = (inert (before ++ [c]) && inert after) := by
  induction before with
  | nil =>
    have here := inert_plain_append [c] after (by simpa using safe)
    have alone := inert_plain_append [c] [] (by simpa using safe)
    simp only [singleton_append] at here alone
    rw [nil_append, nil_append, here, alone]
    rfl
  | cons d rest ih =>
    have sameHead : (rest ++ c :: after).head? = (rest ++ [c]).head? := by
      cases rest <;> rfl
    rw [cons_append, cons_append, inert, inert, ih, sameHead, Bool.and_assoc]

/-- Replacing one run of ordinary characters by another, after an ordinary character, changes
nothing about what the text means between double quotes. -/
theorem inert_replace (before : Text) (c : Char) (old new after : Text) (safe : plain c = true)
    (oldSafe : old.all plain = true) (newSafe : new.all plain = true) :
    inert (before ++ c :: (old ++ after)) = inert (before ++ c :: (new ++ after)) := by
  rw [inert_append_cons before c (old ++ after) safe, inert_append_cons before c (new ++ after) safe,
    inert_plain_append old after oldSafe, inert_plain_append new after newSafe]

theorem run_bare_digits (word : WordState) (text : Text) (fresh : word ≠ .inside)
    (nonempty : text ≠ []) (digits : text.all Char.isDigit = true) :
    run ⟨[], .none, word⟩ text = (⟨[], .none, .digits⟩, text.map (Event.literal .bare)) := by
  induction text generalizing word with
  | nil => exact absurd rfl nonempty
  | cons c rest ih =>
    rw [all_cons, Bool.and_eq_true] at digits
    have one : run ⟨[], .none, word⟩ [c] = (⟨[], .none, .digits⟩, [Event.literal .bare c]) := by
      have isDigit := digits.1
      have ordinary : ∀ d : Char, d.isDigit = false → c ≠ d := by
        rintro d other rfl
        rw [isDigit] at other
        cases other
      simp only [run, step, readPlain, readBare, ordinary '\'' (by decide),
        ordinary '"' (by decide), ordinary '\\' (by decide), ordinary '$' (by decide),
        ordinary '`' (by decide), ordinary ' ' (by decide), ordinary '\t' (by decide),
        ordinary '\n' (by decide), ordinary '|' (by decide), ordinary '&' (by decide),
        ordinary ';' (by decide), ordinary '<' (by decide), ordinary '>' (by decide),
        ordinary '(' (by decide), ordinary ')' (by decide), ordinary '#' (by decide),
        mem_cons, not_mem_nil, or_self, false_and, isDigit, fresh, ne_eq,
        not_false_eq_true, and_self, ↓reduceIte, append_nil]
    cases rest with
    | nil => exact one
    | cons d more =>
      exact run_append_of _ _ _ [c] (d :: more) _ _ one (ih .digits (by decide) (by simp) digits.2)

mutual

/-- A piece of a word, as the author of a script means it. -/
inductive Part where
  | bare (text : Text)
  | quoted (text : Text)
  | parameter (quoted : Bool) (name : Text)
  | substitution (quoted : Bool) (commands : List Lexeme)

/-- A token of a script. -/
inductive Lexeme where
  | word (parts : List Part)
  | ioNumber (digits : Text)
  | operator (text : Text)

end

mutual

/-- The events that report one part, once the quotes are removed. -/
def Part.events : Part → List Event
  | .bare text => text.map (.literal .bare)
  | .quoted text => text.map (.literal .quoted)
  | .parameter quoted name => [.parameter quoted name]
  | .substitution quoted commands => .opens quoted ['$', '('] :: lexemesEvents commands ++ [.closes]

def partsEvents : List Part → List Event
  | [] => []
  | part :: rest => part.events ++ partsEvents rest

def Lexeme.events : Lexeme → List Event
  | .word parts => partsEvents parts ++ [.wordEnd]
  | .ioNumber digits => digits.map (.literal .bare) ++ [.ioNumber]
  | .operator text => [.operator text]

def lexemesEvents : List Lexeme → List Event
  | [] => []
  | lexeme :: rest => lexeme.events ++ lexemesEvents rest

end

theorem lexemesEvents_append (first second : List Lexeme) :
    lexemesEvents (first ++ second) = lexemesEvents first ++ lexemesEvents second := by
  induction first with
  | nil => rfl
  | cons lexeme rest ih => rw [cons_append, lexemesEvents, lexemesEvents, ih, append_assoc]

theorem partsEvents_append (first second : List Part) :
    partsEvents (first ++ second) = partsEvents first ++ partsEvents second := by
  induction first with
  | nil => rfl
  | cons part rest ih => rw [cons_append, partsEvents, partsEvents, ih, append_assoc]

@[simp] theorem partsEvents_quoted (text : Text) :
    partsEvents [.quoted text] = text.map (Event.literal .quoted) := by
  rw [partsEvents, partsEvents, Part.events, append_nil]

@[simp] theorem lexemesEvents_word (parts : List Part) :
    lexemesEvents [.word parts] = partsEvents parts ++ [.wordEnd] := by
  rw [lexemesEvents, lexemesEvents, Lexeme.events, append_nil]

@[simp] theorem quoteRemoval_bare (text : Text) :
    quoteRemoval (text.map (Event.literal .bare)) = text.map (Event.literal .bare) := by
  induction text with
  | nil => rfl
  | cons c rest ih =>
    rw [map_cons, show quoteRemoval (Event.literal .bare c :: _) =
      Event.literal .bare c :: quoteRemoval _ from rfl, ih]

/-- A text that the shell reads as exactly these tokens. -/
def ReadsAs (text : Text) (lexemes : List Lexeme) : Prop :=
  (readText text).map quoteRemoval = some (lexemesEvents lexemes)

end DracVms.PosixShell
