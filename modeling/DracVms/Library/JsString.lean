import DracVms.Library.Json

namespace DracVms.JsString

open List

open Json (Text)

/-- The blanks and line terminators that `String.prototype.trim` removes. -/
def isBlank (c : Char) : Bool :=
  c.val ∈ [9, 10, 11, 12, 13, 32, 0xA0, 0x1680, 0x2028, 0x2029, 0x202F, 0x205F, 0x3000, 0xFEFF] ||
    (0x2000 ≤ c.val && c.val ≤ 0x200A)

theorem notBlank_of_visible (c : Char) (low : 33 ≤ c.toNat) (high : c.toNat ≤ 126) :
    isBlank c = false := by
  simp only [isBlank, mem_cons, not_mem_nil, or_false, ← UInt32.toNat_inj,
    UInt32.le_iff_toNat_le, Bool.or_eq_false_iff, decide_eq_false_iff_not, Bool.and_eq_false_iff]
  constructor
  · intro blank
    change c.toNat = 9 ∨ c.toNat = 10 ∨ c.toNat = 11 ∨ c.toNat = 12 ∨ c.toNat = 13 ∨
      c.toNat = 32 ∨ c.toNat = 160 ∨ c.toNat = 5760 ∨ c.toNat = 8232 ∨ c.toNat = 8233 ∨
      c.toNat = 8239 ∨ c.toNat = 8287 ∨ c.toNat = 12288 ∨ c.toNat = 65279 at blank
    omega
  · left
    change ¬ 8192 ≤ c.toNat
    omega

def trimEnd (text : Text) : Text := (text.reverse.dropWhile isBlank).reverse

def trim (text : Text) : Text := trimEnd (text.dropWhile isBlank)

variable (text : Text)

theorem trimEnd_trimEnd : trimEnd (trimEnd text) = trimEnd text := by
  rw [trimEnd, trimEnd, reverse_reverse, dropWhile_idempotent]

theorem trim_trim : trim (trim text) = trim text := by
  have kept : (trimEnd (text.dropWhile isBlank)).dropWhile isBlank =
      trimEnd (text.dropWhile isBlank) := by
    cases trimmed : trimEnd (text.dropWhile isBlank) with
    | nil => rfl
    | cons c rest =>
      have start : trimEnd (text.dropWhile isBlank) <+: text.dropWhile isBlank := by
        rw [trimEnd, ← reverse_suffix, reverse_reverse]
        exact dropWhile_suffix _
      rw [trimmed] at start
      obtain ⟨more, whole⟩ := start
      have first : text.dropWhile isBlank ≠ [] := by
        rw [← whole]
        exact cons_ne_nil _ _
      have solid := head_dropWhile_not isBlank first
      simp only [← whole, cons_append, head_cons] at solid
      rw [dropWhile_cons_of_neg (by rw [solid]; exact Bool.false_ne_true)]
  rw [trim, trim, kept, trimEnd_trimEnd]

theorem trim_of_solid {text : Text} (solid : ∀ c ∈ text, isBlank c = false) : trim text = text := by
  have stops : ∀ word : Text, (∀ c ∈ word, isBlank c = false) → word.dropWhile isBlank = word := by
    intro word visible
    cases word with
    | nil => rfl
    | cons c rest =>
      rw [dropWhile_cons_of_neg]
      rw [visible c mem_cons_self]
      exact Bool.false_ne_true
  rw [trim, trimEnd, stops text solid, stops text.reverse, reverse_reverse]
  intro c listed
  exact solid c (mem_reverse.mp listed)

theorem trim_split : ∃ u v, text = u ++ (trim text ++ v) ∧
    (∀ c ∈ u, isBlank c = true) ∧ ∀ c ∈ v, isBlank c = true := by
  refine ⟨text.takeWhile isBlank, ((text.dropWhile isBlank).reverse.takeWhile isBlank).reverse,
    ?_, fun c inside => mem_takeWhile_imp inside, ?_⟩
  · rw [trim, trimEnd, ← reverse_append, takeWhile_append_dropWhile, reverse_reverse,
      takeWhile_append_dropWhile]
  · intro c inside
    exact mem_takeWhile_imp (mem_reverse.mp inside)

variable {c : Char}

theorem mem_trim {text : Text} (inside : c ∈ text) (solid : isBlank c = false) : c ∈ trim text := by
  obtain ⟨u, v, split, before, after⟩ := trim_split text
  rw [split] at inside
  rcases mem_append.mp inside with start | rest
  · rw [before c start] at solid
    cases solid
  rcases mem_append.mp rest with kept | ends
  · exact kept
  · rw [after c ends] at solid
    cases solid

theorem trim_append_blank {blank : Text} (blanks : ∀ c ∈ blank, isBlank c = true) :
    trim (text ++ blank) = trim text := by
  have ends : ∀ front : Text, trimEnd (front ++ blank) = trimEnd front := by
    intro front
    rw [trimEnd, reverse_append, dropWhile_append_of_pos, ← trimEnd]
    intro c inside
    exact blanks c (mem_reverse.mp inside)
  by_cases all : text.dropWhile isBlank = []
  · have whole : (text ++ blank).dropWhile isBlank = blank.dropWhile isBlank :=
      dropWhile_append_of_pos (dropWhile_eq_nil_iff.mp all)
    rw [trim, trim, whole, all, dropWhile_eq_nil_iff.mpr blanks]
  · have whole : (text ++ blank).dropWhile isBlank = text.dropWhile isBlank ++ blank := by
      rw [dropWhile_append, if_neg]
      rwa [List.isEmpty_iff]
    rw [trim, trim, whole, ends]

theorem trim_length_le : (trim text).length ≤ text.length := by
  obtain ⟨u, v, split, -⟩ := trim_split text
  have total := congrArg List.length split
  simp only [length_append] at total
  omega

theorem mem_splitOn (sep : Char) {t : Text} (listed : c ∈ t) :
    c = sep ∨ ∃ part ∈ t.splitOn sep, c ∈ part := by
  induction t with
  | nil => cases listed
  | cons x rest ih =>
    rw [splitOn_cons_eq_if_modifyHead]
    rcases mem_cons.mp listed with same | deeper
    · split
      · rename_i here
        left
        rw [same]
        exact eq_of_beq here
      · right
        cases parts : rest.splitOn sep with
        | nil => exact absurd parts (splitOn_ne_nil sep rest)
        | cons a others =>
          refine ⟨x :: a, mem_cons_self, ?_⟩
          rw [same]
          exact mem_cons_self
    · rcases ih deeper with separator | ⟨part, known, inside⟩
      · exact Or.inl separator
      · right
        split
        · exact ⟨part, mem_cons_of_mem _ known, inside⟩
        · cases parts : rest.splitOn sep with
          | nil => exact absurd parts (splitOn_ne_nil sep rest)
          | cons a others =>
            rw [parts] at known
            rcases mem_cons.mp known with first | later
            · refine ⟨x :: a, mem_cons_self, mem_cons_of_mem x ?_⟩
              rw [← first]
              exact inside
            · exact ⟨part, mem_cons_of_mem _ later, inside⟩

theorem mapM_spelled {α β : Type} {read : α → Option β} {parts : List α} {values : List β}
    (all : parts.mapM read = some values) : ∀ part ∈ parts, ∃ value, read part = some value := by
  induction parts generalizing values with
  | nil =>
    intro part listed
    cases listed
  | cons a rest ih =>
    rw [mapM_cons] at all
    obtain ⟨value, first, later⟩ := Option.bind_eq_some_iff.mp all
    obtain ⟨others, tail, -⟩ := Option.bind_eq_some_iff.mp later
    intro part listed
    rcases mem_cons.mp listed with same | deeper
    · rw [same]
      exact ⟨value, first⟩
    · exact ih tail part deeper

/-- The letters of ASCII in lower case, which is all that a comparison with a plain word sees. -/
def toLowerCase (text : Text) : Text := text.map Char.toLower

theorem toLower_of_not_upper (other : ¬ (65 ≤ c.toNat ∧ c.toNat ≤ 90)) : c.toLower = c := by
  unfold Char.toLower
  split
  · rename_i upper
    exact absurd ⟨UInt32.le_iff_toNat_le.mp upper.1, UInt32.le_iff_toNat_le.mp upper.2⟩ other
  · rfl

theorem toNat_toLower (upper : 65 ≤ c.toNat ∧ c.toNat ≤ 90) : c.toLower.toNat = c.toNat + 32 := by
  have letter : c.val ≥ 'A'.val ∧ c.val ≤ 'Z'.val :=
    ⟨UInt32.le_iff_toNat_le.mpr upper.1, UInt32.le_iff_toNat_le.mpr upper.2⟩
  have value : c.toLower.toNat = (c.val + 32).toNat := by
    rw [Char.toLower, dif_pos letter]
    rfl
  rw [value, UInt32.toNat_add]
  change (c.toNat + 32) % 4294967296 = _
  omega

/-- A mark in front of the letters is not made of another character. -/
theorem toLower_eq_iff {mark : Char} (low : mark.toNat < 65) : c.toLower = mark ↔ c = mark := by
  by_cases upper : 65 ≤ c.toNat ∧ c.toNat ≤ 90
  · have lower := toNat_toLower upper
    constructor
    all_goals
      rintro rfl
      omega
  · rw [toLower_of_not_upper upper]

/-- `String.prototype.toLowerCase`, with the tables of Unicode that the engine has. -/
class Unicode where
  toLowerCase : Text → Text

/-- The tables as far as ASCII goes. -/
abbrev ascii : Unicode := ⟨toLowerCase⟩

/-- `text.slice(0, n)`, in UTF-16 units; the half of a character that is left at the end is written
as the replacement character. -/
def sliceUnits : ℕ → Text → Text
  | _, [] => []
  | n, c :: rest =>
    let units := if c.toNat < 0x10000 then 1 else 2
    if units ≤ n then c :: sliceUnits (n - units) rest
    else if n = 1 then ['\uFFFD'] else []

theorem sliceUnits_front (n : ℕ) (text : Text) : ∃ front rest,
    text = front ++ rest ∧
      (sliceUnits n text = front ∨ sliceUnits n text = front ++ ['\uFFFD']) := by
  induction text generalizing n with
  | nil => exact ⟨[], [], rfl, Or.inl rfl⟩
  | cons c text ih =>
    unfold sliceUnits
    generalize (if c.toNat < 0x10000 then 1 else 2) = units
    dsimp only
    split
    · obtain ⟨front, rest, whole, cut⟩ := ih (n - units)
      refine ⟨c :: front, rest, by rw [cons_append, ← whole], ?_⟩
      rcases cut with cut | cut
      · exact Or.inl (by rw [cut])
      · exact Or.inr (by rw [cut, cons_append])
    · refine ⟨[], c :: text, rfl, ?_⟩
      split
      · exact Or.inr rfl
      · exact Or.inl rfl

/-- One number for the UTF-16 units of a character: the high unit first, then the low one. -/
def unitKey (c : Char) : Nat :=
  if c.toNat < 0x10000 then c.toNat * 1024
  else (0xD800 + (c.toNat - 0x10000) / 1024) * 1024 + (c.toNat - 0x10000) % 1024

theorem unitKey_injective : Function.Injective unitKey := by
  intro first second same
  have validFirst := first.valid
  have validSecond := second.valid
  apply Char.ext
  apply UInt32.toNat_inj.mp
  unfold unitKey Char.toNat at same
  split at same <;> split at same <;> omega

/-- `a <= b` on strings: the order of their UTF-16 units. -/
def unitsLe (a b : Text) : Bool := decide (a.map unitKey ≤ b.map unitKey)

theorem unitsLe_total (a b : Text) : unitsLe a b = true ∨ unitsLe b a = true := by
  simp only [unitsLe, decide_eq_true_eq]
  exact le_total _ _

theorem unitsLe_trans (a b c : Text) (first : unitsLe a b = true) (second : unitsLe b c = true) :
    unitsLe a c = true := by
  simp only [unitsLe, decide_eq_true_eq] at first second ⊢
  exact le_trans first second

theorem unitsLe_antisymm (a b : Text) (first : unitsLe a b = true) (second : unitsLe b a = true) :
    a = b := by
  simp only [unitsLe, decide_eq_true_eq] at first second
  exact map_injective_iff.mpr unitKey_injective (le_antisymm first second)

end DracVms.JsString
