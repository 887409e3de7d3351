import Mathlib
namespace DracVms.Where

/-! Conditions over the rows of a table, as SQL decides them: a comparison with a column that is null
is neither true nor false, and only the rows where the whole condition is true are selected. -/

section Conditions

variable {Row Value : Type}

abbrev Condition (Row : Type) := Row → Option Bool

/-- The row is selected. -/
def Selects (condition : Condition Row) (row : Row) : Prop := condition row = some true

/-- The row would be selected by the negation. -/
def Refutes (condition : Condition Row) (row : Row) : Prop := condition row = some false

instance (condition : Condition Row) (row : Row) : Decidable (Selects condition row) :=
  inferInstanceAs (Decidable (condition row = some true))

def select (condition : Condition Row) (rows : List Row) : List Row :=
  rows.filter fun row => Selects condition row

def compare (column : Row → Option Value) (test : Value → Bool) : Condition Row :=
  fun row => (column row).map test

def isNull (column : Row → Option Value) : Condition Row := fun row => some (column row).isNone

def isNotNull (column : Row → Option Value) : Condition Row := fun row => some (column row).isSome

def negate (condition : Condition Row) : Condition Row := fun row => (condition row).map not

def both : Option Bool → Option Bool → Option Bool
  | some false, _ => some false
  | some true, other => other
  | none, some false => some false
  | none, _ => none

def either : Option Bool → Option Bool → Option Bool
  | some true, _ => some true
  | some false, other => other
  | none, some true => some true
  | none, _ => none

/-- The fields of a `where`. -/
def all (conditions : List (Condition Row)) : Condition Row :=
  fun row => conditions.foldr (fun condition so => both (condition row) so) (some true)

def any (conditions : List (Condition Row)) : Condition Row :=
  fun row => conditions.foldr (fun condition so => either (condition row) so) (some false)

theorem both_true (a b : Option Bool) : both a b = some true ↔ a = some true ∧ b = some true := by
  rcases a with _ | _ | _ <;> rcases b with _ | _ | _ <;> decide

theorem either_true (a b : Option Bool) :
    either a b = some true ↔ a = some true ∨ b = some true := by
  rcases a with _ | _ | _ <;> rcases b with _ | _ | _ <;> decide

variable (row : Row)

@[simp]
theorem selects_all_nil : Selects (all []) row := rfl

variable (condition : Condition Row)

@[simp]
theorem selects_all_cons (conditions : List (Condition Row)) (row : Row) :
    Selects (all (condition :: conditions)) row ↔
      Selects condition row ∧ Selects (all conditions) row :=
  both_true _ _

@[simp]
theorem selects_any_nil : ¬Selects (any []) row := by
  intro selected
  cases selected

@[simp]
theorem selects_any_cons (conditions : List (Condition Row)) (row : Row) :
    Selects (any (condition :: conditions)) row ↔
      Selects condition row ∨ Selects (any conditions) row :=
  either_true _ _

variable (column : Row → Option Value)

@[simp]
theorem selects_compare (test : Value → Bool) (row : Row) :
    Selects (compare column test) row ↔ ∃ value, column row = some value ∧ test value = true := by
  simp [Selects, compare]

@[simp]
theorem refutes_compare (test : Value → Bool) (row : Row) :
    Refutes (compare column test) row ↔ ∃ value, column row = some value ∧ test value = false := by
  simp [Refutes, compare]

@[simp]
theorem selects_negate (row : Row) : Selects (negate condition) row ↔ Refutes condition row := by
  simp [Selects, Refutes, negate]

@[simp]
theorem selects_isNull : Selects (isNull column) row ↔ column row = none := by
  simp [Selects, isNull]

@[simp]
theorem selects_isNotNull : Selects (isNotNull column) row ↔ ∃ value, column row = some value := by
  simp [Selects, isNotNull, Option.isSome_iff_exists]

@[simp]
theorem mem_select (rows : List Row) (row : Row) :
    row ∈ select condition rows ↔ row ∈ rows ∧ Selects condition row := by
  simp [select]

end Conditions

end DracVms.Where
