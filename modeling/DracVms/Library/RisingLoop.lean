import Mathlib

/-! A pass that is repeated until it makes no move, where every move raises a bounded measure. -/
namespace DracVms.RisingLoop

section Loop

variable {σ : Type} (pass : σ → σ) (moves : σ → ℕ)

def untilQuiet : ℕ → σ → Option σ
  | 0, _ => none
  | fuel + 1, s => if moves (pass s) = moves s then some (pass s) else untilQuiet fuel (pass s)

/-- A pass keeps the invariant, and its moves raise the measure by as much each. -/
structure Rises {K : Type} [Field K] [LinearOrder K] (inv : σ → Prop) (measure : σ → K)
    (gain top : K) : Prop where
  kept : ∀ s, inv s → inv (pass s)
  counted : ∀ s, inv s → moves s ≤ moves (pass s)
  raised : ∀ s, inv s → ((moves (pass s) - moves s : ℕ) : K) * gain ≤ measure (pass s) - measure s
  bounded : ∀ s, inv s → measure s ≤ top

variable {pass moves} {K : Type} [Field K] [LinearOrder K] [IsStrictOrderedRing K]
  {inv : σ → Prop} {measure : σ → K} {gain top : K}

theorem Rises.quiet (rises : Rises pass moves inv measure gain top) (positive : 0 < gain) (n : ℕ)
    (s : σ) (starts : inv s) (room : top - measure s ≤ n * gain) :
    ∃ t, inv t ∧ moves (pass t) = moves t ∧ moves (pass t) ≤ moves s + n ∧
      ∀ fuel, n < fuel → untilQuiet pass moves fuel s = some (pass t) := by
  induction n using Nat.strong_induction_on generalizing s with
  | _ n ih =>
    by_cases still : moves (pass s) = moves s
    · refine ⟨s, starts, still, by omega, fun fuel enough => ?_⟩
      obtain ⟨fuel, rfl⟩ : ∃ k, fuel = k + 1 := ⟨fuel - 1, by omega⟩
      rw [untilQuiet, if_pos still]
    · have counted := rises.counted s starts
      have raised := rises.raised s starts
      have bounded := rises.bounded (pass s) (rises.kept s starts)
      have made : moves (pass s) - moves s ≤ n := by
        have scaled : ((moves (pass s) - moves s : ℕ) : K) * gain ≤ n * gain := by linarith
        exact_mod_cast le_of_mul_le_mul_right scaled positive
      have left : top - measure (pass s) ≤
          ((n - (moves (pass s) - moves s) : ℕ) : K) * gain := by
        rw [Nat.cast_sub made, sub_mul]
        linarith
      obtain ⟨t, kept, quiet, few, runs⟩ :=
        ih (n - (moves (pass s) - moves s)) (by omega) (pass s) (rises.kept s starts) left
      refine ⟨t, kept, quiet, by omega, fun fuel enough => ?_⟩
      obtain ⟨fuel, rfl⟩ : ∃ k, fuel = k + 1 := ⟨fuel - 1, by omega⟩
      rw [untilQuiet, if_neg still]
      exact runs fuel (by omega)

end Loop

end DracVms.RisingLoop
