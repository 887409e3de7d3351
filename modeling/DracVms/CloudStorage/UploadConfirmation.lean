import DracVms.Library.JsNumeral

namespace DracVms.UploadConfirmation

open Json (Text)
open JsNumeral (number naturalOf toDouble)

/-- The answer to a request. `code` is what the body of an error says. -/
structure Response where
  status : ℕ
  contentLength : Option Text
  code : Text

structure S3Error where
  status : ℕ
  code : Text

/-- `Number(response.headers.get('content-length'))`, where it is a size: `Number(null)` is zero. -/
def lengthOf (header : Option Text) : Option ℚ :=
  let contentLength := match header with
    | none => some 0
    | some text => number text
  contentLength.filter fun n => decide (0 ≤ n)

def Response.ok (response : Response) : Bool := 200 ≤ response.status && response.status < 300

def request (response : Response) : Except S3Error (Option ℚ) :=
  if response.ok then .ok (lengthOf response.contentLength)
  else .error ⟨response.status, response.code⟩

structure ConfirmacaoHead where
  exists_ : Bool
  contentLength : Option ℚ
  verificavel : Bool

def headObject (response : Response) : Except S3Error ConfirmacaoHead :=
  match request response with
  | .ok contentLength => .ok ⟨true, contentLength, true⟩
  | .error error =>
    if error.status = 404 ∨ error.code = "NoSuchKey".toList then .ok ⟨false, none, true⟩
    else if error.status = 403 then .ok ⟨false, none, false⟩
    else .error error

inductive Veredito
  | ok
  | inverificavel
  | objetoAusente
  | tamanhoDivergente
  deriving DecidableEq

/-- A number of bytes that a double holds. -/
abbrev Tamanho := { n : ℕ // toDouble n = some (n : ℚ) }

def avaliarConfirmacao (confirmado : ConfirmacaoHead) (tamanhoEnviado : Tamanho) : Veredito :=
  if !confirmado.verificavel then .inverificavel
  else if !confirmado.exists_ then .objetoAusente
  else if confirmado.contentLength.any fun n => decide (n ≠ (tamanhoEnviado.val : ℚ)) then
    .tamanhoDivergente
  else .ok

/-- The chain, which a thrown error ends without an upload. -/
def aceita (response : Response) (tamanhoEnviado : Tamanho) : Bool :=
  match headObject response with
  | .ok confirmado => avaliarConfirmacao confirmado tamanhoEnviado = .ok
  | .error _ => false

/-- The size that a response carries: a header of nothing but digits. -/
def carriedSize (response : Response) : Option ℕ := response.contentLength.bind (naturalOf 10)

/-- The upload is accepted as what the response says. -/
def Confirms (response : Response) (tamanhoEnviado : Tamanho) : Prop :=
  aceita response tamanhoEnviado = true ↔
    response.ok = true ∧
      (carriedSize response = none ∨ carriedSize response = some tamanhoEnviado.val)

/-- Without a header the file is empty. Digits are not so many that the double next to them is the
size of another file or infinite, and what is no digits converts to no size, or to this one. -/
def Legible (header : Option Text) (tamanhoEnviado : Tamanho) : Prop :=
  match header with
  | none => tamanhoEnviado.val = 0
  | some text =>
    match naturalOf 10 text with
    | some n => n = tamanhoEnviado.val ∨ ∃ x, toDouble n = some x ∧ x ≠ (tamanhoEnviado.val : ℚ)
    | none => ∀ x, number text = some x → 0 ≤ x → x = (tamanhoEnviado.val : ℚ)

theorem aceita_iff (response : Response) (tamanhoEnviado : Tamanho) :
    aceita response tamanhoEnviado = true ↔ response.ok = true ∧
      ∀ x, lengthOf response.contentLength = some x → x = (tamanhoEnviado.val : ℚ) := by
  unfold aceita headObject request
  cases fine : response.ok with
  | false =>
    simp only [Bool.false_eq_true, if_false, false_and, iff_false]
    split
    · rename_i confirmado found
      split at found
      · cases found
        simp [avaliarConfirmacao]
      · split at found
        · cases found
          simp [avaliarConfirmacao]
        · cases found
    · exact Bool.false_ne_true
  | true =>
    simp only [if_true, avaliarConfirmacao, Bool.not_true, Bool.false_eq_true, if_false,
      true_and, decide_eq_true_eq]
    cases lengthOf response.contentLength with
    | none => simp
    | some x =>
      by_cases same : x = (tamanhoEnviado.val : ℚ)
      all_goals simp [same]

theorem lengthOf_some {text : Text} {x : ℚ} :
    lengthOf (some text) = some x ↔ number text = some x ∧ 0 ≤ x := by
  rw [lengthOf, Option.filter_eq_some_iff, decide_eq_true_eq]

theorem toDouble_nonneg {n : ℕ} {x : ℚ} (doubled : toDouble (n : ℚ) = some x) : 0 ≤ x := by
  unfold toDouble at doubled
  split at doubled
  · rw [← Option.some.inj doubled]
  · rw [if_neg (not_lt.mpr (Nat.cast_nonneg n))] at doubled
    unfold JsNumeral.nearest at doubled
    dsimp only at doubled
    split at doubled
    · rw [← Option.some.inj doubled]
      have floor : 0 ≤ ⌊(n : ℚ) / 2 ^ JsNumeral.lastBit n⌋ := Int.floor_nonneg.mpr (by positivity)
      have rounded := le_trans floor (JsNumeral.floor_le_roundHalfEven _)
      have cast : (0 : ℚ) ≤ (JsNumeral.roundHalfEven ((n : ℚ) / 2 ^ JsNumeral.lastBit n) : ℤ) := by
        exact_mod_cast rounded
      positivity
    · cases doubled

/-- The chain confirms what it should unless the header is missing or hard to read. -/
theorem confirms_iff (response : Response) (tamanhoEnviado : Tamanho) :
    Confirms response tamanhoEnviado ↔
      (response.ok = true → Legible response.contentLength tamanhoEnviado) := by
  unfold Confirms carriedSize Legible
  rw [aceita_iff]
  cases response.ok with
  | false => simp
  | true =>
    simp only [true_and, forall_const]
    cases header : response.contentLength with
    | none =>
      have zero : lengthOf none = some 0 := by decide +kernel
      rw [zero]
      simp only [Option.some.injEq, forall_eq', Option.bind_none, reduceCtorEq, or_false, iff_true]
      exact ⟨fun same => by exact_mod_cast same.symm, fun same => by rw [same]; rfl⟩
    | some text =>
      simp only [lengthOf_some, Option.bind_some]
      cases natural : naturalOf 10 text with
      | none =>
        simp only [true_or, iff_true]
        exact ⟨fun all x read above => all x ⟨read, above⟩, fun all x read => all x read.1 read.2⟩
      | some n =>
        rw [JsNumeral.number_decimal natural]
        simp only [reduceCtorEq, Option.some.injEq, false_or]
        constructor
        · intro same
          by_cases here : n = tamanhoEnviado.val
          · exact Or.inl here
          · right
            by_contra none_
            apply here
            apply same.mp
            rintro x ⟨doubled, _⟩
            by_contra other
            exact none_ ⟨x, doubled, other⟩
        · rintro (rfl | ⟨x, doubled, other⟩)
          · refine ⟨fun _ => rfl, ?_⟩
            rintro _ x ⟨doubled, _⟩
            rw [tamanhoEnviado.property] at doubled
            exact (Option.some.inj doubled).symm
          · constructor
            · intro all
              exact absurd (all x ⟨doubled, toDouble_nonneg doubled⟩) other
            · rintro rfl
              rw [tamanhoEnviado.property] at doubled
              exact absurd (Option.some.inj doubled).symm other

/-- Without a header, the whole file counts as no file of that size. -/
theorem headerless_refused : ¬ Confirms ⟨200, none, []⟩ ⟨1000, by decide +kernel⟩ := by
  intro confirms
  have accepted := confirms.mpr ⟨by decide, Or.inl rfl⟩
  revert accepted
  decide +kernel

end DracVms.UploadConfirmation
