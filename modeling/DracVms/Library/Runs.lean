import Mathlib

namespace DracVms.Runs

open List

theorem take_extends {α : Type} (steps : List α) {n m : ℕ} (later : n ≤ m) :
    steps.take m = steps.take n ++ (steps.take m).drop n := by
  have front : (steps.take m).take n = steps.take n := by
    rw [take_take, Nat.min_eq_left later]
  rw [← front, take_append_drop]

section Runs

variable {σ α : Type} (step : σ → α → Option σ)

/-- The state after the steps, if every one of them can be taken. -/
def run : σ → List α → Option σ
  | s, [] => some s
  | s, a :: rest => (step s a).bind fun t => run t rest

/-- Every step of the run is taken in a state where it is allowed. -/
def Allowed (guard : σ → α → Prop) : σ → List α → Prop
  | _, [] => True
  | s, a :: rest => guard s a ∧ ∀ t, step s a = some t → Allowed guard t rest

theorem Allowed.cons {guard : σ → α → Prop} {s t : σ} {a : α} {rest : List α} (fine : guard s a)
    (taken : step s a = some t) (later : Allowed step guard t rest) :
    Allowed step guard s (a :: rest) := by
  refine ⟨fine, fun u again => ?_⟩
  cases taken.symm.trans again
  exact later

def Preserves (guard : σ → α → Prop) (inv : σ → Prop) : Prop :=
  ∀ s a t, guard s a → inv s → step s a = some t → inv t

theorem run_cons {s u : σ} {a : α} {rest : List α} (reached : run step s (a :: rest) = some u) :
    ∃ t, step s a = some t ∧ run step t rest = some u :=
  Option.bind_eq_some_iff.mp reached

theorem run_append (s : σ) (first second : List α) :
    run step s (first ++ second) = (run step s first).bind fun t => run step t second := by
  induction first generalizing s with
  | nil => rfl
  | cons a rest ih =>
    rw [cons_append, run, run, Option.bind_assoc]
    congr 1
    funext t
    exact ih t

variable {guard : σ → α → Prop} {inv : σ → Prop}

theorem run_invariant (preserves : Preserves step guard inv) (s t : σ) (steps : List α)
    (allowed : Allowed step guard s steps) (starts : inv s) (reached : run step s steps = some t) :
    inv t := by
  induction steps generalizing s with
  | nil =>
    cases reached
    exact starts
  | cons a rest ih =>
    obtain ⟨u, first, later⟩ := run_cons step reached
    exact ih u (allowed.2 u first) (preserves s a u allowed.1 starts first) later

theorem allowed_always (s : σ) (steps : List α) : Allowed step (fun _ _ => True) s steps := by
  induction steps generalizing s with
  | nil => exact trivial
  | cons a rest ih => exact ⟨trivial, fun t _ => ih t⟩

theorem allowed_of_forall (s : σ) (steps : List α) (each : ∀ a ∈ steps, ∀ t, guard t a) :
    Allowed step guard s steps := by
  induction steps generalizing s with
  | nil => exact trivial
  | cons a rest ih =>
    exact ⟨each a mem_cons_self s, fun t _ => ih t fun b later => each b (mem_cons_of_mem _ later)⟩

variable {steps : List α}

theorem Allowed.mono {guard wider : σ → α → Prop} (wide : ∀ s a, guard s a → wider s a) {s : σ}
    (allowed : Allowed step guard s steps) : Allowed step wider s steps := by
  induction steps generalizing s with
  | nil => exact trivial
  | cons a rest ih => exact ⟨wide s a allowed.1, fun t taken => ih (allowed.2 t taken)⟩

theorem Allowed.both {guard other : σ → α → Prop} {s : σ} (first : Allowed step guard s steps)
    (second : Allowed step other s steps) :
    Allowed step (fun s a => guard s a ∧ other s a) s steps := by
  induction steps generalizing s with
  | nil => exact trivial
  | cons a rest ih =>
    exact ⟨⟨first.1, second.1⟩, fun t taken => ih (first.2 t taken) (second.2 t taken)⟩

theorem Allowed.at_step {s t : σ} {n : Nat} {a : α} (allowed : Allowed step guard s steps)
    (reached : run step s (steps.take n) = some t) (next : steps[n]? = some a) : guard t a := by
  induction steps generalizing s n with
  | nil => cases next
  | cons b rest ih =>
    cases n with
    | zero =>
      cases reached
      cases next
      exact allowed.1
    | succ n =>
      obtain ⟨u, first, later⟩ := run_cons step reached
      exact ih (allowed.2 u first) later next

theorem allowed_front (s : σ) (first second : List α)
    (allowed : Allowed step guard s (first ++ second)) : Allowed step guard s first := by
  induction first generalizing s with
  | nil => exact trivial
  | cons a rest ih => exact ⟨allowed.1, fun t taken => ih t (allowed.2 t taken)⟩

theorem allowed_take (s : σ) (steps : List α) (n : ℕ) (allowed : Allowed step guard s steps) :
    Allowed step guard s (steps.take n) := by
  apply allowed_front step s (steps.take n) (steps.drop n)
  rw [take_append_drop]
  exact allowed

theorem invariant_along (preserves : Preserves step guard inv) (s t : σ) (steps : List α) (n : ℕ)
    (allowed : Allowed step guard s steps) (starts : inv s)
    (reached : run step s (steps.take n) = some t) : inv t :=
  run_invariant step preserves s t (steps.take n) (allowed_take step s steps n allowed) starts
    reached

theorem allowed_suffix {s t : σ} (first second : List α)
    (allowed : Allowed step guard s (first ++ second)) (reached : run step s first = some t) :
    Allowed step guard t second := by
  induction first generalizing s with
  | nil =>
    cases reached
    exact allowed
  | cons a rest ih =>
    obtain ⟨u, taken, later⟩ := run_cons step reached
    exact ih (allowed.2 u taken) later

theorem run_between {related : σ → σ → Prop} (preserves : Preserves step guard inv)
    (stays : ∀ s, related s s) (extends_ : ∀ s t u, related s t → related t u → related s u)
    (each : ∀ s a t, guard s a → inv s → step s a = some t → related s t) {s₀ s t : σ}
    (allowed : Allowed step guard s₀ steps) (starts : inv s₀) {n m : ℕ} (later : n ≤ m)
    (first : run step s₀ (steps.take n) = some s) (second : run step s₀ (steps.take m) = some t) :
    related s t := by
  have chain : ∀ (rest : List α) (s t : σ), Allowed step guard s rest → inv s →
      run step s rest = some t → related s t := by
    intro rest
    induction rest with
    | nil =>
      intro s t _ _ reached
      cases reached
      exact stays s
    | cons a rest ih =>
      intro s t allowed holds reached
      obtain ⟨u, taken, onward⟩ := run_cons step reached
      have next := preserves s a u allowed.1 holds taken
      exact extends_ s u t (each s a u allowed.1 holds taken)
        (ih u t (allowed.2 u taken) next onward)
  have split := take_extends steps later
  have whole := allowed_take step s₀ steps m allowed
  rw [split] at whole second
  rw [run_append, first] at second
  have holds := run_invariant step preserves s₀ s (steps.take n)
    (allowed_front step s₀ _ _ whole) starts first
  exact chain _ s t (allowed_suffix step _ _ whole first) holds second

theorem prefixes_iff_kept {inv prop : σ → Prop} (holds : ∀ s, inv s → prop s) (s t : σ)
    (steps : List α)
    (exact_step : ∀ s, ∀ a ∈ steps, ∀ t, inv s → step s a = some t → (prop t ↔ guard s a) ∧
      (guard s a → inv t))
    (starts : inv s) (reached : run step s steps = some t) :
    (∀ n u, run step s (steps.take n) = some u → prop u) ↔ Allowed step guard s steps := by
  induction steps generalizing s with
  | nil =>
    refine ⟨fun _ => trivial, ?_⟩
    intro _ n u arrived
    rw [take_nil] at arrived
    cases arrived
    exact holds s starts
  | cons a rest ih =>
    obtain ⟨u, first, later⟩ := run_cons step reached
    obtain ⟨survives, keeps⟩ := exact_step s a mem_cons_self u starts first
    have rest_step := fun s a listed => exact_step s a (mem_cons_of_mem _ listed)
    constructor
    · intro always
      have atU : prop u := by
        apply always 1 u
        show (step s a).bind _ = some u
        rw [first]
        rfl
      have allowed := survives.mp atU
      refine ⟨allowed, ?_⟩
      intro v second
      rw [first] at second
      cases second
      apply (ih u rest_step (keeps allowed) later).mp
      intro n v arrived
      apply always (n + 1) v
      show (step s a).bind _ = some v
      rw [first]
      exact arrived
    · intro allowed n v arrived
      cases n with
      | zero =>
        cases arrived
        exact holds s starts
      | succ n =>
        obtain ⟨w, second, last⟩ := run_cons step arrived
        rw [first] at second
        cases second
        exact (ih u rest_step (keeps allowed.1) later).mpr (allowed.2 u first) n v last

theorem prefixes_iff_allowed {inv prop : σ → Prop}
    (exact_step : ∀ s a t, inv s → step s a = some t → inv t ∧ (prop s → (prop t ↔ guard s a)))
    (s t : σ) (steps : List α) (starts : inv s) (holds : prop s)
    (reached : run step s steps = some t) :
    (∀ n u, run step s (steps.take n) = some u → prop u) ↔ Allowed step guard s steps := by
  apply prefixes_iff_kept step (fun s (both : inv s ∧ prop s) => both.2) s t steps _ ⟨starts, holds⟩
    reached
  intro s a _ t both taken
  obtain ⟨kept, survives⟩ := exact_step s a t both.1 taken
  exact ⟨survives both.2, fun allowed => ⟨kept, (survives both.2).mpr allowed⟩⟩

theorem run_total (total : σ → α → σ) (s : σ) (steps : List α) :
    run (fun s a => some (total s a)) s steps = some (steps.foldl total s) := by
  induction steps generalizing s with
  | nil => rfl
  | cons a rest ih => exact ih (total s a)

/-- Allowed runs, for a guard that can be computed. -/
def allowedBy (guard : σ → α → Prop) [∀ s a, Decidable (guard s a)] : σ → List α → Bool
  | _, [] => true
  | s, a :: rest => decide (guard s a) && (step s a).all fun t => allowedBy guard t rest

theorem allowedBy_allowed (guard : σ → α → Prop) [∀ s a, Decidable (guard s a)] (s : σ)
    (steps : List α) (checked : allowedBy step guard s steps = true) :
    Allowed step guard s steps := by
  induction steps generalizing s with
  | nil => exact trivial
  | cons a rest ih =>
    rw [allowedBy, Bool.and_eq_true, decide_eq_true_eq] at checked
    refine ⟨checked.1, ?_⟩
    intro t taken
    apply ih t
    have later := checked.2
    rw [taken, Option.all_some] at later
    exact later

end Runs

end DracVms.Runs
