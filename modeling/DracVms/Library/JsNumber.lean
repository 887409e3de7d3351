import Mathlib

/-! Numbers with one among them that is not a number. -/
namespace DracVms.JsNumber

/-- Nothing compares with the number that is none. -/
abbrev Number (Value : Type) := Option Value

variable {Value : Type} [LinearOrder Value]

def le : Number Value → Number Value → Bool
  | some a, some b => a ≤ b
  | _, _ => false

def lt : Number Value → Number Value → Bool
  | some a, some b => a < b
  | _, _ => false

def eq : Number Value → Number Value → Bool
  | some a, some b => a = b
  | _, _ => false

variable {a b : Number Value}

theorem lt_iff : lt a b = true ↔ ∃ x y, a = some x ∧ b = some y ∧ x < y := by
  match a, b with
  | some x, some y => simp [lt]
  | none, _ => simp [lt]
  | some _, none => simp [lt]

theorem le_iff : le a b = true ↔ ∃ x y, a = some x ∧ b = some y ∧ x ≤ y := by
  match a, b with
  | some x, some y => simp [le]
  | none, _ => simp [le]
  | some _, none => simp [le]

theorem eq_iff : eq a b = true ↔ ∃ x, a = some x ∧ b = some x := by
  match a, b with
  | some x, some y => simp [eq, eq_comm]
  | none, _ => simp [eq]
  | some _, none => simp [eq]

theorem lt_trans_le {a b c : Number Value} (first : lt a b = true) (second : le b c = true) :
    lt a c = true := by
  match a, b, c with
  | some a, some b, some c =>
    have below : a < b := of_decide_eq_true first
    have above : b ≤ c := of_decide_eq_true second
    exact decide_eq_true (lt_of_lt_of_le below above)

theorem not_le_of_lt (above : lt a b = true) : le b a = false := by
  match a, b with
  | some a, some b =>
    have greater : a < b := of_decide_eq_true above
    exact decide_eq_false (not_le.mpr greater)

end DracVms.JsNumber
