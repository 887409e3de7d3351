import DracVms.Library.JsString

/-! `Number(text)`: what numerals are written with, and the double next to what they say. -/
namespace DracVms.JsNumeral

open Json (Text)
open JsString (isBlank trim)

def digitValue (c : Char) : Option ℕ :=
  if '0' ≤ c ∧ c ≤ '9' then some (c.toNat - 48)
  else if 'a' ≤ c.toLower ∧ c.toLower ≤ 'z' then some (c.toLower.toNat - 87)
  else none

def digitOf (base : ℕ) (c : Char) : Option ℕ := (digitValue c).filter (· < base)

/-- A natural number in some base, of at least one digit. -/
def naturalOf (base : ℕ) (text : Text) : Option ℕ :=
  if text = [] then none
  else (text.mapM (digitOf base)).map fun digits => digits.foldl (fun n d => n * base + d) 0

/-! Doubles. -/

def roundHalfEven (x : ℚ) : ℤ :=
  if Int.fract x < 1 / 2 then ⌊x⌋
  else if 1 / 2 < Int.fract x then ⌊x⌋ + 1
  else if ⌊x⌋ % 2 = 0 then ⌊x⌋
  else ⌊x⌋ + 1

/-- The weight of the last bit next to a positive number. -/
def lastBit (x : ℚ) : ℤ := max (Int.log 2 x - 52) (-1074)

def maxExponent : ℕ := 1024

/-- The double next to a positive number, unless it is infinite. -/
def nearest (x : ℚ) : Option ℚ :=
  let y := roundHalfEven (x / 2 ^ lastBit x) * (2 : ℚ) ^ lastBit x
  if y < 2 ^ maxExponent then some y else none

def toDouble (x : ℚ) : Option ℚ :=
  if x = 0 then some 0
  else if x < 0 then (nearest (-x)).map fun y => -y
  else nearest x

/-! Numerals. -/

def exponent (text : Text) : Option ℤ :=
  match text with
  | [] => some 0
  | e :: rest =>
    if e = 'e' ∨ e = 'E' then
      match rest with
      | '+' :: digits => (naturalOf 10 digits).map fun n => (n : ℤ)
      | '-' :: digits => (naturalOf 10 digits).map fun n => -(n : ℤ)
      | digits => (naturalOf 10 digits).map fun n => (n : ℤ)
    else none

def unsignedDecimal (text : Text) : Option ℚ := do
  let whole := text.takeWhile Char.isDigit
  let behind := text.dropWhile Char.isDigit
  let (fraction, rest) :=
    match behind with
    | '.' :: more => (more.takeWhile Char.isDigit, more.dropWhile Char.isDigit)
    | _ => ([], behind)
  let n ← naturalOf 10 (whole ++ fraction)
  let e ← exponent rest
  return n * (10 : ℚ) ^ (e - fraction.length)

def signedDecimal (text : Text) : Option ℚ :=
  match text with
  | '+' :: rest => unsignedDecimal rest
  | '-' :: rest => (unsignedDecimal rest).map fun x => -x
  | _ => unsignedDecimal text

/-- `0x`, `0o` and `0b`. -/
def prefixedInteger (text : Text) : Option ℕ :=
  match text with
  | '0' :: mark :: rest =>
    if mark.toLower = 'x' then naturalOf 16 rest
    else if mark.toLower = 'o' then naturalOf 8 rest
    else if mark.toLower = 'b' then naturalOf 2 rest
    else none
  | _ => none

/-- The number that a text converts to, where it is a finite one. -/
def number (text : Text) : Option ℚ :=
  let numeral := trim text
  if numeral = [] then some 0
  else
    match prefixedInteger numeral with
    | some n => toDouble n
    | none => (signedDecimal numeral).bind toDouble

theorem floor_le_roundHalfEven (x : ℚ) : ⌊x⌋ ≤ roundHalfEven x := by
  unfold roundHalfEven
  split
  · exact le_refl _
  · split
    · omega
    · split <;> omega

/-! Digits. -/

theorem digitOf_eq_some {base d : ℕ} {c : Char} :
    digitOf base c = some d ↔ digitValue c = some d ∧ d < base := by
  rw [digitOf, Option.filter_eq_some_iff, decide_eq_true_eq]

theorem isDigit_of_digitOf {c : Char} {d : ℕ} (digit : digitOf 10 c = some d) :
    c.isDigit = true := by
  obtain ⟨value, small⟩ := digitOf_eq_some.mp digit
  rw [Char.isDigit_iff_toNat]
  by_cases decimal : '0' ≤ c ∧ c ≤ '9'
  · exact ⟨UInt32.le_iff_toNat_le.mp decimal.1, UInt32.le_iff_toNat_le.mp decimal.2⟩
  · unfold digitValue at value
    rw [if_neg decimal] at value
    split at value
    · rename_i letter
      have low : 97 ≤ c.toLower.toNat := UInt32.le_iff_toNat_le.mp letter.1
      have same := Option.some.inj value
      omega
    · cases value

theorem naturalOf_digits {base n : ℕ} {text : Text} (natural : naturalOf base text = some n) :
    text ≠ [] ∧ ∀ c ∈ text, ∃ d, digitOf base c = some d := by
  unfold naturalOf at natural
  split at natural
  · cases natural
  · rename_i some_
    obtain ⟨digits, read, _⟩ := Option.map_eq_some_iff.mp natural
    exact ⟨some_, JsString.mapM_spelled read⟩

theorem digits_of_naturalOf {text : Text} {n : ℕ} (decimal : naturalOf 10 text = some n) :
    text ≠ [] ∧ ∀ c ∈ text, c.isDigit = true := by
  obtain ⟨some_, digits⟩ := naturalOf_digits decimal
  refine ⟨some_, fun c inside => ?_⟩
  obtain ⟨d, digit⟩ := digits c inside
  exact isDigit_of_digitOf digit

theorem trim_digits {text : Text} (digits : ∀ c ∈ text, c.isDigit = true) : trim text = text := by
  apply JsString.trim_of_solid
  intro c inside
  have range := Char.isDigit_iff_toNat.mp (digits c inside)
  have low : 48 ≤ c.toNat := range.1
  have high : c.toNat ≤ 57 := range.2
  exact JsString.notBlank_of_visible c (by omega) (by omega)

theorem number_decimal {text : Text} {n : ℕ} (decimal : naturalOf 10 text = some n) :
    number text = toDouble n := by
  obtain ⟨some_, digits⟩ := digits_of_naturalOf decimal
  have whole : text.takeWhile Char.isDigit = text := List.takeWhile_eq_self_iff.mpr digits
  have behind : text.dropWhile Char.isDigit = [] := List.dropWhile_eq_nil_iff.mpr digits
  have unsigned : unsignedDecimal text = some (n : ℚ) := by
    unfold unsignedDecimal
    rw [whole, behind]
    simp [decimal, exponent]
  have notPrefixed : prefixedInteger text = none := by
    unfold prefixedInteger
    split
    · rename_i mark rest
      have second := digits mark (by simp)
      have range := Char.isDigit_iff_toNat.mp second
      have high : mark.toNat ≤ 57 := range.2
      have lower : mark.toLower = mark := JsString.toLower_of_not_upper (by omega)
      have other : mark ≠ 'x' ∧ mark ≠ 'o' ∧ mark ≠ 'b' := by
        refine ⟨?_, ?_, ?_⟩ <;> rintro rfl <;> exact absurd second (by decide)
      rw [lower, if_neg other.1, if_neg other.2.1, if_neg other.2.2]
    · rfl
  have unsigned_ : signedDecimal text = some (n : ℚ) := by
    unfold signedDecimal
    split
    · exact absurd (digits '+' (by simp)) (by decide)
    · exact absurd (digits '-' (by simp)) (by decide)
    · exact unsigned
  unfold number
  rw [trim_digits digits]
  dsimp only
  rw [if_neg some_, notPrefixed, unsigned_, Option.bind_some]

end DracVms.JsNumeral
