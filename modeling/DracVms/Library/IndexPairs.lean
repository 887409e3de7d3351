import Mathlib

/-! The two nested loops over the positions of a list. -/
namespace DracVms.IndexPairs

/-- The pairs of positions below a bound, the first before the second. -/
def below (n : ℕ) : List (ℕ × ℕ) :=
  (List.range n).flatMap fun i => (List.range' (i + 1) (n - (i + 1))).map fun j => (i, j)

theorem mem_below {n i j : ℕ} : (i, j) ∈ below n ↔ i < j ∧ j < n := by
  simp only [below, List.mem_flatMap, List.mem_range, List.mem_map, List.mem_range'_1,
    Prod.mk.injEq]
  constructor
  · rintro ⟨k, low, l, between, rfl, rfl⟩
    omega
  · rintro ⟨less, within⟩
    exact ⟨i, by omega, j, by omega, rfl, rfl⟩

end DracVms.IndexPairs
