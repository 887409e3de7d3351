import Mathlib
import DracVms.Library.Text

/-! The script of FFmpeg's concat demuxer: a directive on each line, words between blanks, quotes
and backslashes in a string. -/
namespace DracVms.Ffconcat

open List

abbrev Text := List Char

def isBlank (c : Char) : Bool := c == ' ' || c == '\t' || c == '\r' || c == '\n'

def trimBlanks (text : Text) : Text := (text.reverse.dropWhile isBlank).reverse

/-- The string at a point, inside a quote or not. What a quote or a backslash has closed is firm;
of what is still loose the blanks at the end are cut off. -/
def read : Bool → Text → Text → Text → Text
  | _, firm, loose, [] => firm ++ trimBlanks loose
  | true, firm, loose, c :: rest =>
    if c = '\'' then read false (firm ++ loose) [] rest else read true firm (loose ++ [c]) rest
  | false, firm, loose, c :: rest =>
    if isBlank c then firm ++ trimBlanks loose
    else if c = '\'' then read true firm loose rest
    else if c = '\\' then
      match rest with
      | [] => firm ++ trimBlanks (loose ++ [c])
      | d :: rest => read false (firm ++ loose ++ [d]) [] rest
    else read false firm (loose ++ [c]) rest

def token (text : Text) : Text := read false [] [] (text.dropWhile isBlank)

/-- The word at a point and what follows the blanks behind it. -/
def keyword (text : Text) : Text × Text :=
  let start := text.dropWhile isBlank
  (start.takeWhile fun c => !isBlank c, (start.dropWhile fun c => !isBlank c).dropWhile isBlank)

inductive Directive
  | version (name number : Text)
  | file (name : Text)
  | option (name value : Text)
  | other (keyword : Text)
  deriving DecidableEq

def directive (line : Text) : Option Directive :=
  let (word, rest) := keyword line
  if word = [] ∨ word.head? = some '#' then none
  else if word = "ffconcat".toList then
    let (name, rest) := keyword rest
    some (.version name (keyword rest).1)
  else if word = "file".toList then some (.file (token rest))
  else if word = "option".toList then
    let (name, rest) := keyword rest
    some (.option name (token rest))
  else some (.other word)

def document (text : Text) : List Directive := (text.splitOn '\n').filterMap directive

/-- A quote in a string closes it, stands behind a backslash and opens it again. -/
def escape (text : Text) : Text := text.flatMap fun c => if c = '\'' then "'\\''".toList else [c]

theorem escape_cons (c : Char) (text : Text) :
    escape (c :: text) = (if c = '\'' then "'\\''".toList else [c]) ++ escape text := rfl

/-! One character. -/

section Step

variable (firm loose rest : Text)

@[simp] theorem read_nil (inQuote : Bool) :
    read inQuote firm loose [] = firm ++ trimBlanks loose := by
  cases inQuote <;> rfl

@[simp] theorem read_close :
    read true firm loose ('\'' :: rest) = read false (firm ++ loose) [] rest := rfl

theorem read_inside {c : Char} (quote : c ≠ '\'') :
    read true firm loose (c :: rest) = read true firm (loose ++ [c]) rest := if_neg quote

@[simp] theorem read_open :
    read false firm loose ('\'' :: rest) = read true firm loose rest := by
  cases rest <;> rfl

@[simp] theorem read_backslash (d : Char) :
    read false firm loose ('\\' :: d :: rest) = read false (firm ++ loose ++ [d]) [] rest := rfl

theorem read_blank {c : Char} (blank : isBlank c = true) :
    read false firm loose (c :: rest) = firm ++ trimBlanks loose := by
  cases rest <;> exact if_pos blank

theorem read_plain {c : Char} (blank : isBlank c = false) (quote : c ≠ '\'') (backslash : c ≠ '\\') :
    read false firm loose (c :: rest) = read false firm (loose ++ [c]) rest := by
  cases rest <;> simp [read, blank, quote, backslash]

end Step

/-! An escaped text inside a quote. -/

variable (text : Text)

theorem escape_quote : escape ('\'' :: text) = '\'' :: '\\' :: '\'' :: '\'' :: escape text := rfl

theorem escape_other {c : Char} (quote : c ≠ '\'') (text : Text) :
    escape (c :: text) = c :: escape text := by
  rw [escape_cons, if_neg quote]
  rfl

theorem read_true_escape (firm loose text : Text) :
    read true firm loose (escape text ++ ['\'']) = firm ++ loose ++ text := by
  induction text generalizing firm loose with
  | nil => simp [escape, trimBlanks]
  | cons c text ih =>
    by_cases quote : c = '\''
    · subst quote
      rw [escape_quote]
      simp [ih]
    · rw [escape_other quote, cons_append, read_inside _ _ _ quote, ih]
      simp

theorem token_quoted : token ('\'' :: escape text ++ ['\'']) = text := by
  have opened : token ('\'' :: escape text ++ ['\'']) = read true [] [] (escape text ++ ['\'']) :=
    read_open _ _ _
  rw [opened, read_true_escape]
  rfl

/-! An escaped text without quotes around it. -/

section Bare

variable (firm loose text : Text)

theorem heard_true_quote : read true firm loose (escape ('\'' :: text)) =
    read true (firm ++ loose ++ ['\'']) [] (escape text) := by
  simp [escape_quote]

theorem heard_quote : read false firm loose (escape ('\'' :: text)) =
    read true (firm ++ loose ++ ['\\']) [] (escape text) := by
  rw [escape_quote, read_open, read_inside _ _ _ (by decide), read_close, read_open, append_assoc]

theorem heard_backslash {d : Char} (quote : d ≠ '\'') :
    read false firm loose (escape ('\\' :: d :: text)) =
      read false (firm ++ loose ++ [d]) [] (escape text) := by
  rw [escape_other (by decide), escape_other quote, read_backslash]

theorem heard_backslash_quote : read false firm loose (escape ('\\' :: '\'' :: text)) =
    read true (firm ++ loose ++ ['\'', '\'']) [] (escape text) := by
  rw [escape_other (by decide), escape_quote, read_backslash, read_backslash, read_open]
  simp

end Bare

theorem firm_prefix (inQuote : Bool) (firm loose text : Text) :
    firm <+: read inQuote firm loose text := by
  fun_induction read inQuote firm loose text with
  | case1 => exact prefix_append _ _
  | case2 firm loose rest ih => exact (prefix_append _ _).trans ih
  | case3 firm loose c rest quote ih => exact ih
  | case4 firm loose c rest blank => exact prefix_append _ _
  | case5 firm loose rest blank ih => exact ih
  | case6 => exact prefix_append _ _
  | case7 firm loose d rest blank quote ih =>
    have start : firm <+: firm ++ loose ++ [d] := by
      rw [append_assoc]
      exact prefix_append _ _
    exact start.trans ih
  | case8 firm loose c rest blank quote backslash ih => exact ih

theorem length_trimBlanks : (trimBlanks text).length ≤ text.length := by
  have shorter := (dropWhile_suffix isBlank (l := text.reverse)).length_le
  simpa [trimBlanks] using shorter

theorem heard_length (inQuote : Bool) (firm loose text : Text) :
    (read inQuote firm loose (escape text)).length ≤ firm.length + loose.length + text.length := by
  induction size : text.length using Nat.strong_induction_on
    generalizing inQuote firm loose text with
  | _ n ih =>
    cases text with
    | nil =>
      have trimmed := length_trimBlanks loose
      simp [escape]
      omega
    | cons c text =>
      rw [length_cons] at size
      have shorter : text.length < n := by omega
      by_cases quote : c = '\''
      · subst quote
        cases inQuote with
        | true =>
          have later := ih _ shorter true (firm ++ loose ++ ['\'']) [] text rfl
          rw [heard_true_quote]
          simp only [length_append, length_singleton, length_nil] at later
          omega
        | false =>
          have later := ih _ shorter true (firm ++ loose ++ ['\\']) [] text rfl
          rw [heard_quote]
          simp only [length_append, length_singleton, length_nil] at later
          omega
      · have copied := ih _ shorter inQuote firm (loose ++ [c]) text rfl
        rw [length_append, length_singleton] at copied
        cases inQuote with
        | true =>
          rw [escape_other quote, read_inside _ _ _ quote]
          omega
        | false =>
          by_cases blank : isBlank c = true
          · have trimmed := length_trimBlanks loose
            rw [escape_other quote, read_blank _ _ _ blank, length_append]
            omega
          · by_cases backslash : c = '\\'
            · subst backslash
              cases text with
              | nil =>
                have trimmed := length_trimBlanks (loose ++ ['\\'])
                rw [length_append, length_singleton] at trimmed
                change (firm ++ trimBlanks (loose ++ ['\\'])).length ≤ _
                rw [length_append]
                omega
              | cons d text =>
                rw [length_cons] at size
                have much : text.length < n := by omega
                by_cases second : d = '\''
                · subst second
                  have later := ih _ much true (firm ++ loose ++ ['\'', '\'']) [] text rfl
                  rw [heard_backslash_quote]
                  simp only [length_append, length_cons, length_nil] at later
                  omega
                · have later := ih _ much false (firm ++ loose ++ [d]) [] text rfl
                  rw [heard_backslash _ _ _ second]
                  simp only [length_append, length_cons, length_nil] at later
                  omega
            · rw [Bool.not_eq_true] at blank
              rw [escape_other quote, read_plain _ _ _ blank quote backslash]
              omega

/-- What is heard outside quotes as it is written: no blank, no quote, and no backslash in front of
another character. -/
def Plain (text : Text) : Prop :=
  (∀ c ∈ text, isBlank c = false ∧ c ≠ '\'') ∧ '\\' ∉ text.dropLast

instance (text : Text) : Decidable (Plain text) := inferInstanceAs (Decidable (_ ∧ _))

theorem trimBlanks_plain {text : Text} (solid : ∀ c ∈ text, isBlank c = false) :
    trimBlanks text = text := by
  unfold trimBlanks
  cases back : text.reverse with
  | nil => rw [dropWhile_nil, reverse_nil, ← reverse_eq_nil_iff.mp back]
  | cons c rest =>
    have last : isBlank c = false := solid c (mem_reverse.mp (back ▸ mem_cons_self ..))
    rw [dropWhile_cons_of_neg (by rw [last]; decide), ← back, reverse_reverse]

theorem heard_iff (text loose : Text) (solid : ∀ c ∈ loose, isBlank c = false) :
    read false [] loose (escape text) = loose ++ text ↔ Plain text := by
  induction text generalizing loose with
  | nil =>
    constructor
    · exact fun _ => ⟨nofun, not_mem_nil⟩
    · intro _
      change read false [] loose [] = _
      rw [read_nil, trimBlanks_plain solid, append_nil, nil_append]
  | cons c text ih =>
    by_cases quote : c = '\''
    · subst quote
      constructor
      · intro same
        have start := firm_prefix true ([] ++ loose ++ ['\\']) [] (escape text)
        rw [← heard_quote, same, nil_append, prefix_append_right_inj] at start
        exact absurd (cons_prefix_cons.mp start).1 (by decide)
      · exact fun plain => absurd rfl (plain.1 '\'' (mem_cons_self ..)).2
    by_cases blank : isBlank c = true
    · constructor
      · intro same
        rw [escape_other quote, read_blank _ _ _ blank, trimBlanks_plain solid] at same
        have sizes := congrArg List.length same
        simp at sizes
      · exact fun plain =>
          absurd blank (Bool.eq_false_iff.mp (plain.1 c (mem_cons_self ..)).1)
    rw [Bool.not_eq_true] at blank
    have solidly : ∀ d ∈ loose ++ [c], isBlank d = false := by
      intro d inside
      rcases mem_append.mp inside with old | new
      · exact solid d old
      · exact mem_singleton.mp new ▸ blank
    cases text with
    | nil =>
      have heard : read false [] loose (escape [c]) = loose ++ [c] := by
        by_cases backslash : c = '\\'
        · subst backslash
          change [] ++ trimBlanks (loose ++ ['\\']) = _
          rw [trimBlanks_plain solidly, nil_append]
        · rw [escape_other quote, read_plain _ _ _ blank quote backslash]
          exact (read_nil _ _ _).trans (trimBlanks_plain solidly)
      refine ⟨fun _ => ⟨fun d inside => ?_, not_mem_nil⟩, fun _ => heard⟩
      obtain rfl := mem_singleton.mp inside
      exact ⟨blank, quote⟩
    | cons d text =>
      by_cases backslash : c = '\\'
      · subst backslash
        refine ⟨fun same => ?_, fun plain => absurd (mem_cons_self ..) plain.2⟩
        by_cases second : d = '\''
        · subst second
          have start := firm_prefix true ([] ++ loose ++ ['\'', '\'']) [] (escape text)
          rw [← heard_backslash_quote, same, nil_append, prefix_append_right_inj] at start
          exact absurd (cons_prefix_cons.mp start).1 (by decide)
        · have short := heard_length false ([] ++ loose ++ [d]) [] text
          rw [← heard_backslash _ _ _ second, same] at short
          simp only [length_append, length_cons, length_nil] at short
          omega
      · rw [escape_other quote, read_plain _ _ _ blank quote backslash]
        have again := ih (loose ++ [c]) solidly
        rw [append_assoc] at again
        refine again.trans ⟨fun plain => ⟨fun e inside => ?_, ?_⟩, fun plain => ⟨?_, ?_⟩⟩
        · rcases mem_cons.mp inside with rfl | later
          · exact ⟨blank, quote⟩
          · exact plain.1 e later
        · rw [dropLast_cons_cons, mem_cons, not_or]
          exact ⟨Ne.symm backslash, plain.2⟩
        · exact fun e later => plain.1 e (mem_cons_of_mem _ later)
        · have both := plain.2
          rw [dropLast_cons_cons, mem_cons, not_or] at both
          exact both.2

theorem dropWhile_escape : (escape text).dropWhile isBlank = escape (text.dropWhile isBlank) := by
  induction text with
  | nil => rfl
  | cons c text ih =>
    by_cases blank : isBlank c = true
    · have quote : c ≠ '\'' := by
        rintro rfl
        exact absurd blank (by decide)
      rw [escape_other quote, dropWhile_cons_of_pos blank, ih, dropWhile_cons_of_pos blank]
    · rw [dropWhile_cons_of_neg blank]
      by_cases quote : c = '\''
      · subst quote
        rfl
      · rw [escape_other quote, dropWhile_cons_of_neg blank]

theorem token_escape_iff : token (escape text) = text ↔ Plain text := by
  unfold token
  rw [dropWhile_escape]
  cases text with
  | nil => exact ⟨fun _ => ⟨nofun, not_mem_nil⟩, fun _ => rfl⟩
  | cons c text =>
    by_cases blank : isBlank c = true
    · refine ⟨fun same => ?_, fun plain =>
        absurd blank (Bool.eq_false_iff.mp (plain.1 c (mem_cons_self ..)).1)⟩
      rw [dropWhile_cons_of_pos blank] at same
      have short := heard_length false [] [] (text.dropWhile isBlank)
      have shorter := (dropWhile_suffix isBlank (l := text)).length_le
      rw [same] at short
      simp only [length_cons, length_nil] at short
      omega
    · rw [dropWhile_cons_of_neg blank]
      exact heard_iff (c :: text) [] nofun

/-! Lines. -/

theorem token_dropWhile : token (text.dropWhile isBlank) = token text := by
  unfold token
  rw [dropWhile_idempotent]

theorem keyword_word (word : Text) (solid : ∀ c ∈ word, isBlank c = false) (some_ : word ≠ [])
    (rest : Text) : keyword (word ++ ' ' :: rest) = (word, rest.dropWhile isBlank) := by
  have start : (word ++ ' ' :: rest).dropWhile isBlank = word ++ ' ' :: rest := by
    cases word with
    | nil => exact absurd rfl some_
    | cons c word =>
      exact dropWhile_cons_of_neg (Bool.eq_false_iff.mp (solid c (mem_cons_self ..)))
  have whole : ∀ c ∈ word, (!isBlank c) = true := fun c inside => by rw [solid c inside]; rfl
  unfold keyword
  rw [start]
  dsimp only
  rw [takeWhile_append_of_pos whole, dropWhile_append_of_pos whole]
  simp [List.takeWhile, List.dropWhile, isBlank]

theorem directive_file : directive ("file ".toList ++ text) = some (.file (token text)) := by
  have word := keyword_word "file".toList (by simp [isBlank]) (by simp) text
  unfold directive
  rw [show "file ".toList ++ text = "file".toList ++ ' ' :: text from rfl, word]
  simp [token_dropWhile]

theorem directive_option {name : Text} (solid : ∀ c ∈ name, isBlank c = false) (some_ : name ≠ [])
    (text : Text) :
    directive ("option ".toList ++ name ++ ' ' :: text) = some (.option name (token text)) := by
  have word := keyword_word "option".toList (by simp [isBlank]) (by simp) (name ++ ' ' :: text)
  have start : (name ++ ' ' :: text).dropWhile isBlank = name ++ ' ' :: text := by
    cases name with
    | nil => exact absurd rfl some_
    | cons c name =>
      exact dropWhile_cons_of_neg (Bool.eq_false_iff.mp (solid c (mem_cons_self ..)))
  have second := keyword_word name solid some_ text
  unfold directive
  rw [show "option ".toList ++ name ++ ' ' :: text =
    "option".toList ++ ' ' :: (name ++ ' ' :: text) from rfl, word, start]
  simp [second, token_dropWhile]

theorem document_lines {lines : List Text} (some_ : lines ≠ []) (each : ∀ line ∈ lines, '\n' ∉ line) :
    document (['\n'].intercalate lines) = lines.filterMap directive := by
  unfold document
  rw [splitOn_intercalate '\n' each some_]

end DracVms.Ffconcat
