import DracVms.Library.Json

namespace DracVms.Json

open List

def isSpace (c : Char) : Bool := c ∈ [' ', '\t', '\n', '\r']

/-- What may follow a leaf, if anything does. -/
def separators : List Char := [',', ']', '}', ' ', '\t', '\n', '\r']

/-- How the leaves are written and read. -/
structure LeafSyntax (α : Type) where
  write : α → Text
  read : Text → Option (α × Text)
  starts : ∀ a, ∃ c rest, write a = c :: rest ∧ isSpace c = false ∧ c ∉ ['[', ']', '{', '}']
  read_write : ∀ a rest, (rest = [] ∨ ∃ c more, rest = c :: more ∧ c ∈ separators) →
    read (write a ++ rest) = some (a, rest)

def hexDigit (n : Nat) : Char := if n < 10 then Char.ofNat (48 + n) else Char.ofNat (87 + n)

def hexValue (c : Char) : Option Nat :=
  if 48 ≤ c.toNat ∧ c.toNat ≤ 57 then some (c.toNat - 48)
  else if 97 ≤ c.toNat ∧ c.toNat ≤ 102 then some (c.toNat - 87)
  else if 65 ≤ c.toNat ∧ c.toNat ≤ 70 then some (c.toNat - 55)
  else none

/-- `JSON.stringify` escapes the quote, the backslash and the control characters. -/
def escapeChar (c : Char) : Text :=
  if c = '"' then ['\\', '"']
  else if c = '\\' then ['\\', '\\']
  else if c.toNat = 8 then ['\\', 'b']
  else if c.toNat = 9 then ['\\', 't']
  else if c.toNat = 10 then ['\\', 'n']
  else if c.toNat = 12 then ['\\', 'f']
  else if c.toNat = 13 then ['\\', 'r']
  else if c.toNat < 32 then ['\\', 'u', '0', '0', hexDigit (c.toNat / 16), hexDigit (c.toNat % 16)]
  else [c]

def quoted (text : Text) : Text := '"' :: (text.flatMap escapeChar ++ ['"'])

def unescape (c : Char) : Option Char :=
  if c = '"' ∨ c = '\\' ∨ c = '/' then some c
  else if c = 'b' then some (Char.ofNat 8)
  else if c = 't' then some (Char.ofNat 9)
  else if c = 'n' then some (Char.ofNat 10)
  else if c = 'f' then some (Char.ofNat 12)
  else if c = 'r' then some (Char.ofNat 13)
  else none

/-- The rest of a string, after its opening quote. -/
def readString : Text → Option (Text × Text)
  | [] => none
  | '"' :: rest => some ([], rest)
  | '\\' :: 'u' :: a :: b :: c :: d :: rest =>
    match hexValue a, hexValue b, hexValue c, hexValue d with
    | some a, some b, some c, some d =>
      (readString rest).map fun found =>
        (Char.ofNat (a * 4096 + b * 256 + c * 16 + d) :: found.1, found.2)
    | _, _, _, _ => none
  | '\\' :: c :: rest =>
    match unescape c with
    | some c => (readString rest).map fun found => (c :: found.1, found.2)
    | none => none
  | c :: rest =>
    if c.toNat < 32 then none
    else (readString rest).map fun found => (c :: found.1, found.2)

mutual

def stringify {α : Type} (leaf : LeafSyntax α) : Value α → Text
  | .atom a => leaf.write a
  | .array [] => ['[', ']']
  | .array (value :: rest) => '[' :: (stringify leaf value ++ stringifyItems leaf rest)
  | .object [] => ['{', '}']
  | .object ((key, value) :: rest) =>
    '{' :: (quoted key ++ ':' :: (stringify leaf value ++ stringifyFields leaf rest))

/-- The items after the first, and the closing bracket. -/
def stringifyItems {α : Type} (leaf : LeafSyntax α) : List (Value α) → Text
  | [] => [']']
  | value :: rest => ',' :: (stringify leaf value ++ stringifyItems leaf rest)

def stringifyFields {α : Type} (leaf : LeafSyntax α) : List (Text × Value α) → Text
  | [] => ['}']
  | (key, value) :: rest =>
    ',' :: (quoted key ++ ':' :: (stringify leaf value ++ stringifyFields leaf rest))

end

def skip (text : Text) : Text := text.dropWhile isSpace

mutual

def readValue {α : Type} (leaf : LeafSyntax α) : Nat → Text → Option (Value α × Text)
  | 0, _ => none
  | n + 1, text =>
    match skip text with
    | '[' :: rest =>
      match skip rest with
      | ']' :: rest => some (.array [], rest)
      | rest => do
          let (value, rest) ← readValue leaf n rest
          let (items, rest) ← readItems leaf n rest
          some (.array (value :: items), rest)
    | '{' :: rest =>
      match skip rest with
      | '}' :: rest => some (.object [], rest)
      | rest => do
          let (field, rest) ← readField leaf n rest
          let (fields, rest) ← readFields leaf n rest
          some (.object (field :: fields), rest)
    | rest => (leaf.read rest).map fun found => (.atom found.1, found.2)

def readItems {α : Type} (leaf : LeafSyntax α) : Nat → Text → Option (List (Value α) × Text)
  | 0, _ => none
  | n + 1, text =>
    match skip text with
    | ']' :: rest => some ([], rest)
    | ',' :: rest => do
        let (value, rest) ← readValue leaf n rest
        let (items, rest) ← readItems leaf n rest
        some (value :: items, rest)
    | _ => none

def readField {α : Type} (leaf : LeafSyntax α) : Nat → Text → Option ((Text × Value α) × Text)
  | 0, _ => none
  | n + 1, text =>
    match skip text with
    | '"' :: rest => do
        let (key, rest) ← readString rest
        match skip rest with
        | ':' :: rest => do
            let (value, rest) ← readValue leaf n rest
            some ((key, value), rest)
        | _ => none
    | _ => none

def readFields {α : Type} (leaf : LeafSyntax α) :
    Nat → Text → Option (List (Text × Value α) × Text)
  | 0, _ => none
  | n + 1, text =>
    match skip text with
    | '}' :: rest => some ([], rest)
    | ',' :: rest => do
        let (field, rest) ← readField leaf n rest
        let (fields, rest) ← readFields leaf n rest
        some (field :: fields, rest)
    | _ => none

end

/-- The tree a text writes, its objects still as written. -/
def readTree {α : Type} (leaf : LeafSyntax α) (text : Text) : Option (Value α) :=
  match readValue leaf text.length text with
  | some (value, rest) => if skip rest = [] then some value else none
  | none => none

/-- `JSON.parse`: the objects are built field by field. -/
def parse {α : Type} (leaf : LeafSyntax α) (text : Text) : Option (Value α) :=
  (readTree leaf text).map fun value => value.rearrange buildFields

theorem hexValue_hexDigit : ∀ n, n < 16 → hexValue (hexDigit n) = some n := by
  decide

theorem readString_plain (c : Char) (rest : Text) (mark : c ≠ '"') (slash : c ≠ '\\')
    (printed : ¬ c.toNat < 32) :
    readString (c :: rest) = (readString rest).map fun found => (c :: found.1, found.2) := by
  rw [readString.eq_def]
  split <;> simp_all

theorem readString_escapeChar (c : Char) (rest : Text) : readString (escapeChar c ++ rest) =
      (readString rest).map fun found => (c :: found.1, found.2) := by
  have named : ∀ n, c.toNat = n → Char.ofNat n = c := by
    intro n same
    rw [← same]
    exact Char.ofNat_toNat c
  unfold escapeChar
  split
  · subst_vars; rfl
  split
  · subst_vars; rfl
  split
  · rename_i code
    rw [← named 8 code]; rfl
  split
  · rename_i code
    rw [← named 9 code]; rfl
  split
  · rename_i code
    rw [← named 10 code]; rfl
  split
  · rename_i code
    rw [← named 12 code]; rfl
  split
  · rename_i code
    rw [← named 13 code]; rfl
  split
  · rename_i control
    have high := hexValue_hexDigit (c.toNat / 16) (by omega)
    have low := hexValue_hexDigit (c.toNat % 16) (by omega)
    have zero : hexValue '0' = some 0 := by decide
    have same : Char.ofNat (0 * 4096 + 0 * 256 + c.toNat / 16 * 16 + c.toNat % 16) = c :=
      named _ (by omega)
    simp only [cons_append, nil_append]
    rw [readString]
    simp only [zero, high, low, same]
  · rename_i mark slash _ _ _ _ _ printed
    exact readString_plain c rest mark slash printed

theorem readString_quoted (text rest : Text) :
    readString (text.flatMap escapeChar ++ '"' :: rest) = some (text, rest) := by
  induction text with
  | nil => rfl
  | cons c more ih =>
    rw [flatMap_cons, append_assoc, readString_escapeChar, ih]
    rfl

mutual

/-- The depth and the breadth a reader has to go through. -/
def size {α : Type} : Value α → Nat
  | .atom _ => 1
  | .array [] => 1
  | .array (value :: rest) => 1 + size value + itemsSize rest
  | .object [] => 1
  | .object ((_, value) :: rest) => 2 + size value + fieldsSize rest

def itemsSize {α : Type} : List (Value α) → Nat
  | [] => 1
  | value :: rest => 1 + size value + itemsSize rest

def fieldsSize {α : Type} : List (Text × Value α) → Nat
  | [] => 1
  | (_, value) :: rest => 2 + size value + fieldsSize rest

end

mutual

theorem size_le_length {α : Type} (leaf : LeafSyntax α) :
    ∀ value : Value α, size value ≤ (stringify leaf value).length
  | .atom a => by
      obtain ⟨c, rest, written, _⟩ := leaf.starts a
      simp [size, stringify, written]
  | .array [] => by simp [size, stringify]
  | .array (value :: rest) => by
      have first := size_le_length leaf value
      have others := itemsSize_le_length leaf rest
      simp only [size, stringify, length_cons, length_append]
      omega
  | .object [] => by simp [size, stringify]
  | .object ((key, value) :: rest) => by
      have first := size_le_length leaf value
      have others := fieldsSize_le_length leaf rest
      simp only [size, stringify, length_cons, length_append]
      omega

theorem itemsSize_le_length {α : Type} (leaf : LeafSyntax α) :
    ∀ items : List (Value α), itemsSize items ≤ (stringifyItems leaf items).length
  | [] => by simp [itemsSize, stringifyItems]
  | value :: rest => by
      have first := size_le_length leaf value
      have others := itemsSize_le_length leaf rest
      simp only [itemsSize, stringifyItems, length_cons, length_append]
      omega

theorem fieldsSize_le_length {α : Type} (leaf : LeafSyntax α) :
    ∀ fields : List (Text × Value α), fieldsSize fields ≤ (stringifyFields leaf fields).length
  | [] => by simp [fieldsSize, stringifyFields]
  | (key, value) :: rest => by
      have first := size_le_length leaf value
      have others := fieldsSize_le_length leaf rest
      simp only [fieldsSize, stringifyFields, length_cons, length_append]
      omega

end

/-- What may stand right after a value. -/
def Separated (rest : Text) : Prop :=
  rest = [] ∨ ∃ c more, rest = c :: more ∧ c ∈ separators

theorem skip_solid (c : Char) (rest : Text) (solid : isSpace c = false) :
    skip (c :: rest) = c :: rest := by
  rw [skip, dropWhile_cons_of_neg]
  simp [solid]

variable {α : Type} (leaf : LeafSyntax α)

theorem stringify_starts (value : Value α) :
    ∃ c rest, stringify leaf value = c :: rest ∧ isSpace c = false ∧ c ≠ ']' ∧ c ≠ '}' := by
  match value with
  | .atom a =>
    obtain ⟨c, rest, written, solid, bracket⟩ := leaf.starts a
    refine ⟨c, rest, by rw [stringify, written], solid, ?_, ?_⟩ <;> rintro rfl <;> simp at bracket
  | .array [] => exact ⟨'[', [']'], rfl, rfl, by decide, by decide⟩
  | .array (_ :: _) => exact ⟨'[', _, rfl, rfl, by decide, by decide⟩
  | .object [] => exact ⟨'{', ['}'], rfl, rfl, by decide, by decide⟩
  | .object ((_, _) :: _) => exact ⟨'{', _, rfl, rfl, by decide, by decide⟩

theorem items_separated (items : List (Value α)) (rest : Text) :
    Separated (stringifyItems leaf items ++ rest) := by
  cases items with
  | nil => exact Or.inr ⟨']', rest, rfl, by decide⟩
  | cons value more => exact Or.inr ⟨',', _, rfl, by decide⟩

theorem fields_separated (fields : List (Text × Value α)) (rest : Text) :
    Separated (stringifyFields leaf fields ++ rest) := by
  cases fields with
  | nil => exact Or.inr ⟨'}', rest, rfl, by decide⟩
  | cons field more => exact Or.inr ⟨',', _, rfl, by decide⟩

theorem readValue_leaf (n : Nat) (a : α) (rest : Text) (separated : Separated rest) :
    readValue leaf (n + 1) (leaf.write a ++ rest) = some (.atom a, rest) := by
  obtain ⟨c, more, written, solid, bracket⟩ := leaf.starts a
  have found := leaf.read_write a rest separated
  have skipped : skip (leaf.write a ++ rest) = leaf.write a ++ rest := by
    rw [written, cons_append, skip_solid c _ solid]
  rw [readValue, skipped]
  split
  · rename_i opened
    rw [written, cons_append] at opened
    rw [(List.cons.inj opened).1] at bracket
    exact absurd bracket (by decide)
  · rename_i opened
    rw [written, cons_append] at opened
    rw [(List.cons.inj opened).1] at bracket
    exact absurd bracket (by decide)
  · rw [found]
    rfl

theorem readValue_array {α : Type} (leaf : LeafSyntax α) (n : Nat) (text middle rest : Text)
    (value : Value α) (items : List (Value α)) (starts : ∃ c more, text = c :: more ∧
      isSpace c = false ∧ c ≠ ']' ∧ c ≠ '}')
    (first : readValue leaf n text = some (value, middle))
    (others : readItems leaf n middle = some (items, rest)) :
    readValue leaf (n + 1) ('[' :: text) = some (.array (value :: items), rest) := by
  obtain ⟨c, more, begins, solid, open', _⟩ := starts
  have skipped : skip text = text := by rw [begins, skip_solid c more solid]
  rw [readValue, skip_solid '[' text rfl]
  simp only
  split
  · rename_i closed
    rw [skipped, begins] at closed
    exact absurd (List.cons.inj closed).1 open'
  · rw [skipped, first]
    simp only [Option.bind_eq_bind, Option.bind_some, others]

theorem readValue_object (n : Nat) (text middle rest : Text) (field : Text × Value α)
    (fields : List (Text × Value α)) (starts : ∃ more, text = '"' :: more)
    (first : readField leaf n text = some (field, middle))
    (others : readFields leaf n middle = some (fields, rest)) :
    readValue leaf (n + 1) ('{' :: text) = some (.object (field :: fields), rest) := by
  obtain ⟨more, begins⟩ := starts
  have skipped : skip text = text := by rw [begins, skip_solid '"' more rfl]
  rw [readValue, skip_solid '{' text rfl]
  simp only
  split
  · rename_i closed
    rw [skipped, begins] at closed
    exact absurd (List.cons.inj closed).1 (by decide)
  · rw [skipped, first]
    simp only [Option.bind_eq_bind, Option.bind_some, others]

theorem readItems_next (n : Nat) (text middle rest : Text) (value : Value α)
    (items : List (Value α)) (first : readValue leaf n text = some (value, middle))
    (others : readItems leaf n middle = some (items, rest)) :
    readItems leaf (n + 1) (',' :: text) = some (value :: items, rest) := by
  rw [readItems, skip_solid ',' text rfl]
  simp only [first, Option.bind_eq_bind, Option.bind_some, others]

theorem readFields_next (n : Nat) (text middle rest : Text) (field : Text × Value α)
    (fields : List (Text × Value α)) (first : readField leaf n text = some (field, middle))
    (others : readFields leaf n middle = some (fields, rest)) :
    readFields leaf (n + 1) (',' :: text) = some (field :: fields, rest) := by
  rw [readFields, skip_solid ',' text rfl]
  simp only [first, Option.bind_eq_bind, Option.bind_some, others]

theorem readField_written (n : Nat) (key text rest : Text) (value : Value α)
    (first : readValue leaf n text = some (value, rest)) :
    readField leaf (n + 1) (quoted key ++ ':' :: text) = some ((key, value), rest) := by
  have name : readString (key.flatMap escapeChar ++ '"' :: (':' :: text)) = some (key, ':' :: text) :=
    readString_quoted key (':' :: text)
  have opened : quoted key ++ ':' :: text =
      '"' :: (key.flatMap escapeChar ++ '"' :: (':' :: text)) := by
    simp only [quoted, cons_append, append_assoc, nil_append]
  rw [opened, readField, skip_solid '"' _ rfl]
  simp only [name, Option.bind_eq_bind, Option.bind_some, skip_solid ':' text rfl, first]

mutual

theorem readValue_stringify {α : Type} (leaf : LeafSyntax α) :
    ∀ (value : Value α) (n : Nat) (rest : Text), size value ≤ n → Separated rest →
      readValue leaf n (stringify leaf value ++ rest) = some (value, rest)
  | .atom a, 0, rest, enough, _ => by simp [size] at enough
  | .atom a, n + 1, rest, _, separated => readValue_leaf leaf n a rest separated
  | .array [], 0, rest, enough, _ => by simp [size] at enough
  | .array [], n + 1, rest, _, _ => rfl
  | .array (value :: more), 0, rest, enough, _ => by simp [size] at enough
  | .array (value :: more), n + 1, rest, enough, _ => by
      simp only [size] at enough
      have first := readValue_stringify leaf value n (stringifyItems leaf more ++ rest) (by omega)
        (items_separated leaf more rest)
      have others := readItems_stringify leaf more n rest (by omega)
      obtain ⟨c, tail, begins, solid, bracket, brace⟩ := stringify_starts leaf value
      rw [stringify, cons_append, append_assoc]
      exact readValue_array leaf n _ _ rest value more
        ⟨c, tail ++ (stringifyItems leaf more ++ rest), by rw [begins, cons_append], solid,
          bracket, brace⟩ first others
  | .object [], 0, rest, enough, _ => by simp [size] at enough
  | .object [], n + 1, rest, _, _ => rfl
  | .object ((key, value) :: more), 0, rest, enough, _ => by simp [size] at enough
  | .object ((key, value) :: more), n + 1, rest, enough, _ => by
      simp only [size] at enough
      obtain ⟨m, rfl⟩ : ∃ m, n = m + 1 := ⟨n - 1, by omega⟩
      have inner := readValue_stringify leaf value m (stringifyFields leaf more ++ rest) (by omega)
        (fields_separated leaf more rest)
      have first := readField_written leaf m key _ _ value inner
      have others := readFields_stringify leaf more (m + 1) rest (by omega)
      rw [stringify, cons_append, append_assoc, cons_append, append_assoc]
      exact readValue_object leaf (m + 1) _ _ rest (key, value) more ⟨_, rfl⟩ first others

theorem readItems_stringify {α : Type} (leaf : LeafSyntax α) :
    ∀ (items : List (Value α)) (n : Nat) (rest : Text), itemsSize items ≤ n →
      readItems leaf n (stringifyItems leaf items ++ rest) = some (items, rest)
  | [], 0, rest, enough => by simp [itemsSize] at enough
  | [], n + 1, rest, _ => rfl
  | value :: more, 0, rest, enough => by simp [itemsSize] at enough
  | value :: more, n + 1, rest, enough => by
      simp only [itemsSize] at enough
      have first := readValue_stringify leaf value n (stringifyItems leaf more ++ rest) (by omega)
        (items_separated leaf more rest)
      have others := readItems_stringify leaf more n rest (by omega)
      rw [stringifyItems, cons_append, append_assoc]
      exact readItems_next leaf n _ _ rest value more first others

theorem readFields_stringify {α : Type} (leaf : LeafSyntax α) :
    ∀ (fields : List (Text × Value α)) (n : Nat) (rest : Text), fieldsSize fields ≤ n →
      readFields leaf n (stringifyFields leaf fields ++ rest) = some (fields, rest)
  | [], 0, rest, enough => by simp [fieldsSize] at enough
  | [], n + 1, rest, _ => rfl
  | (key, value) :: more, 0, rest, enough => by simp [fieldsSize] at enough
  | (key, value) :: more, n + 1, rest, enough => by
      simp only [fieldsSize] at enough
      obtain ⟨m, rfl⟩ : ∃ m, n = m + 1 := ⟨n - 1, by omega⟩
      have inner := readValue_stringify leaf value m (stringifyFields leaf more ++ rest) (by omega)
        (fields_separated leaf more rest)
      have first := readField_written leaf m key _ _ value inner
      have others := readFields_stringify leaf more (m + 1) rest (by omega)
      rw [stringifyFields, cons_append, append_assoc, cons_append, append_assoc]
      exact readFields_next leaf (m + 1) _ _ rest (key, value) more first others

end

theorem blank_separated (blank : Text) (spaces : ∀ c ∈ blank, isSpace c = true) :
    Separated blank := by
  cases blank with
  | nil => exact Or.inl rfl
  | cons c rest =>
    have space := spaces c mem_cons_self
    simp only [isSpace, mem_cons, not_mem_nil, or_false, decide_eq_true_eq] at space
    refine Or.inr ⟨c, rest, rfl, ?_⟩
    rcases space with rfl | rfl | rfl | rfl <;> decide

theorem readTree_stringify_blank (value : Value α) (blank : Text)
    (spaces : ∀ c ∈ blank, isSpace c = true) :
    readTree leaf (stringify leaf value ++ blank) = some value := by
  have enough : size value ≤ (stringify leaf value ++ blank).length := by
    have bound := size_le_length leaf value
    rw [length_append]
    omega
  have reading := readValue_stringify leaf value _ blank enough (blank_separated blank spaces)
  have skipped : skip blank = [] := dropWhile_eq_nil_iff.mpr spaces
  rw [readTree, reading]
  simp only [skipped, if_true]

theorem readTree_stringify (value : Value α) :
    readTree leaf (stringify leaf value) = some value := by
  have reading := readTree_stringify_blank leaf value [] (fun _ member => nomatch member)
  rwa [append_nil] at reading

theorem stringify_injective (first second : Value α)
    (same : stringify leaf first = stringify leaf second) : first = second := by
  have left := readTree_stringify leaf first
  rw [same, readTree_stringify leaf second] at left
  exact (Option.some.inj left).symm

theorem parse_stringify_blank (value : Value α) (blank : Text)
    (spaces : ∀ c ∈ blank, isSpace c = true) (live : value.IsLive) :
    parse leaf (stringify leaf value ++ blank) = some value := by
  rw [parse, readTree_stringify_blank leaf value blank spaces, Option.map_some,
    rearrange_live value live]

theorem parse_stringify (value : Value α) (live : value.IsLive) :
    parse leaf (stringify leaf value) = some value := by
  rw [parse, readTree_stringify, Option.map_some, rearrange_live value live]

def isNumberChar (c : Char) : Bool := c.isDigit || c ∈ ['+', '-', '.', 'e', 'E']

/-- The finite numbers of a language, with the text it writes for each and how it reads one. -/
structure NumberFormat where
  Number : Type
  write : Number → Text
  read : Text → Option Number
  write_ne_nil : ∀ n, write n ≠ []
  written : ∀ n, ∀ c ∈ write n, isNumberChar c = true
  read_write : ∀ n, read (write n) = some n

inductive Scalar (N : Type) where
  | null
  | bool (b : Bool)
  | number (n : N)
  | string (text : Text)

def writeScalar (format : NumberFormat) : Scalar format.Number → Text
  | .null => ['n', 'u', 'l', 'l']
  | .bool true => ['t', 'r', 'u', 'e']
  | .bool false => ['f', 'a', 'l', 's', 'e']
  | .number n => format.write n
  | .string text => quoted text

def readScalar (format : NumberFormat) : Text → Option (Scalar format.Number × Text)
  | '"' :: rest => (readString rest).map fun found => (.string found.1, found.2)
  | 'n' :: 'u' :: 'l' :: 'l' :: rest => some (.null, rest)
  | 't' :: 'r' :: 'u' :: 'e' :: rest => some (.bool true, rest)
  | 'f' :: 'a' :: 'l' :: 's' :: 'e' :: rest => some (.bool false, rest)
  | text =>
    (format.read (text.takeWhile isNumberChar)).map fun n =>
      (.number n, text.dropWhile isNumberChar)

theorem writeScalar_starts (format : NumberFormat) (a : Scalar format.Number) :
    ∃ c rest, writeScalar format a = c :: rest ∧ isSpace c = false ∧ c ∉ ['[', ']', '{', '}'] := by
  cases a with
  | null => exact ⟨'n', _, rfl, by decide, by decide⟩
  | bool b => cases b <;> exact ⟨_, _, rfl, by decide, by decide⟩
  | string text => exact ⟨'"', _, rfl, by decide, by decide⟩
  | number n =>
    cases written : format.write n with
    | nil => exact absurd written (format.write_ne_nil n)
    | cons c rest =>
      have number := format.written n c (by rw [written]; exact mem_cons_self)
      refine ⟨c, rest, written, ?_, ?_⟩
      · by_contra space
        simp only [isSpace, mem_cons, not_mem_nil, or_false,
          Bool.not_eq_false, decide_eq_true_eq] at space
        rcases space with rfl | rfl | rfl | rfl <;> exact absurd number (by decide)
      · intro bracket
        simp only [mem_cons, not_mem_nil, or_false] at bracket
        rcases bracket with rfl | rfl | rfl | rfl <;> exact absurd number (by decide)

theorem readScalar_number (format : NumberFormat) (n : format.Number) (rest : Text)
    (separated : Separated rest) :
    readScalar format (format.write n ++ rest) = some (.number n, rest) := by
  have all := format.written n
  have stops : rest.takeWhile isNumberChar = [] ∧ rest.dropWhile isNumberChar = rest := by
    rcases separated with rfl | ⟨c, more, rfl, mark⟩
    · exact ⟨rfl, rfl⟩
    · simp only [separators, mem_cons, not_mem_nil, or_false] at mark
      rcases mark with rfl | rfl | rfl | rfl | rfl | rfl | rfl <;> exact ⟨rfl, rfl⟩
  have digits : (format.write n ++ rest).takeWhile isNumberChar = format.write n := by
    rw [takeWhile_append_of_pos all, stops.1, append_nil]
  have later : (format.write n ++ rest).dropWhile isNumberChar = rest := by
    rw [dropWhile_append_of_pos all, stops.2]
  cases written : format.write n with
  | nil => exact absurd written (format.write_ne_nil n)
  | cons c tail =>
    have number := all c (by rw [written]; exact mem_cons_self)
    rw [written] at digits later
    rw [readScalar.eq_def]
    split
    case h_5 => rw [digits, later, ← written, format.read_write, Option.map_some]
    all_goals
      rename_i begins
      rw [(List.cons.inj begins).1] at number
      exact absurd number (by decide)

/-- The syntax of JSON's leaves. -/
def scalarSyntax (format : NumberFormat) : LeafSyntax (Scalar format.Number) where
  write := writeScalar format
  read := readScalar format
  starts := writeScalar_starts format
  read_write := by
    intro a rest separated
    cases a with
    | null => rfl
    | bool b => cases b <;> rfl
    | number n => exact readScalar_number format n rest separated
    | string text =>
      have reading := readString_quoted text rest
      simp only [writeScalar, quoted, cons_append, append_assoc, nil_append,
        readScalar, reading, Option.map_some]

instance neZero_ten : NeZero 10 := ⟨by decide⟩

/-- The numbers of one decimal digit. -/
def digits : NumberFormat where
  Number := Fin 10
  write n := [Char.ofNat (48 + n.val)]
  read text :=
    match text with
    | [c] => if c.isDigit then some (Fin.ofNat 10 (c.toNat - 48)) else none
    | _ => none
  write_ne_nil _ := cons_ne_nil _ _
  written n := forall_mem_singleton.mpr (by revert n; decide)
  read_write := by decide

instance : DecidableEq digits.Number := inferInstanceAs (DecidableEq (Fin 10))

def digitOne : digits.Number := (1 : Fin 10)

end DracVms.Json
