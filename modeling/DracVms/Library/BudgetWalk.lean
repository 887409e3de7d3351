import Mathlib

namespace DracVms.BudgetWalk

open List

section Walk

variable {Item : Type} (spends : Item → Bool)

/-- Goes along the list until the items that spend have used the budget up. -/
def walk : Nat → List Item → List Item
  | 0, _ => []
  | _ + 1, [] => []
  | budget + 1, item :: rest =>
    item :: walk (if spends item then budget else budget + 1) rest

def spent (items : List Item) : Nat := items.countP spends

variable (budget : Nat)

@[simp]
theorem walk_nil : walk spends budget [] = [] := by
  cases budget <;> rfl

variable (items : List Item)

theorem walk_initial : walk spends budget items <+: items := by
  induction items generalizing budget with
  | nil => simp
  | cons item rest ih =>
    cases budget with
    | zero => exact nil_prefix
    | succ budget => exact cons_prefix_cons.mpr ⟨rfl, ih _⟩

theorem mem_of_walk (item : Item) (walked : item ∈ walk spends budget items) : item ∈ items :=
  (walk_initial spends budget items).subset walked

theorem spent_le : spent spends (walk spends budget items) ≤ budget := by
  induction items generalizing budget with
  | nil => simp [spent]
  | cons item rest ih =>
    cases budget with
    | zero => simp [walk, spent]
    | succ budget =>
      have later := ih (if spends item then budget else budget + 1)
      simp only [walk, spent, countP_cons] at later ⊢
      split at later
      · rename_i uses
        simp only [uses, if_true] at later ⊢
        omega
      · rename_i free
        simp only [free] at later ⊢
        simpa using later

theorem walk_all (remains : spent spends (walk spends budget items) < budget) :
    walk spends budget items = items := by
  induction items generalizing budget with
  | nil => simp
  | cons item rest ih =>
    cases budget with
    | zero => exact absurd remains (Nat.not_lt_zero _)
    | succ budget =>
      rw [walk]
      congr 1
      apply ih
      simp only [walk, spent, countP_cons] at remains ⊢
      by_cases uses : spends item = true
      · simp only [uses, if_true] at remains ⊢
        omega
      · simp only [uses] at remains ⊢
        simpa using remains

theorem walk_append (first second : List Item) : walk spends budget (first ++ second) =
      walk spends budget first ++
        walk spends (budget - spent spends (walk spends budget first)) second := by
  induction first generalizing budget with
  | nil => simp [spent]
  | cons item rest ih =>
    cases budget with
    | zero =>
      rw [walk, walk, nil_append, Nat.zero_sub]
      cases second <;> rfl
    | succ budget =>
      rw [cons_append, walk, walk, ih, cons_append]
      congr 3
      simp only [spent, countP_cons]
      by_cases uses : spends item = true
      · simp only [uses, if_true]
        omega
      · simp only [uses]
        simp

theorem walk_fits (fits : items.length ≤ budget) : walk spends budget items = items := by
  induction items generalizing budget with
  | nil => simp
  | cons item rest ih =>
    rw [length_cons] at fits
    cases budget with
    | zero => omega
    | succ budget =>
      rw [walk]
      congr 1
      apply ih
      split <;> omega

theorem walk_page (page rest : List Item) (fits : page.length ≤ budget) :
    walk spends budget (page ++ rest) = page ++ walk spends (budget - spent spends page) rest := by
  rw [walk_append, walk_fits spends budget page fits]

@[simp]
theorem walk_zero : walk spends 0 items = [] := by
  cases items <;> rfl

theorem spent_append (first second : List Item) :
    spent spends (first ++ second) = spent spends first + spent spends second :=
  countP_append

end Walk

theorem walk_congr {Item : Type} (spends spends' : Item → Bool) (budget : Nat) (items : List Item)
    (same : ∀ item ∈ items, spends item = spends' item) :
    walk spends budget items = walk spends' budget items := by
  induction items generalizing budget with
  | nil => simp
  | cons item rest ih =>
    obtain ⟨here, later⟩ := forall_mem_cons.mp same
    cases budget with
    | zero => rfl
    | succ budget => rw [walk, walk, here, ih _ later]

end DracVms.BudgetWalk
