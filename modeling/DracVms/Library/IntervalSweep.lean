import Mathlib

namespace DracVms.IntervalSweep

open List

/-! One pass over intervals ordered by where they begin, which keeps the furthest end seen. -/

section Sweep

variable {Time : Type} [LinearOrder Time] (reported : Time → Time → Bool)

def hole (source target : Time) : List (Time × Time) :=
  if reported source target then [(source, target)] else []

/-- The reported holes before each interval, and the furthest end. -/
def sweep : Time → List (Time × Time) → List (Time × Time) × Time
  | cursor, [] => ([], cursor)
  | cursor, interval :: rest =>
    let after := sweep (max cursor interval.2) rest
    (hole reported cursor interval.1 ++ after.1, after.2)

/-- The intervals begin one after another. -/
def Ordered (intervals : List (Time × Time)) : Prop :=
  intervals.Pairwise fun earlier later => earlier.1 ≤ later.1

/-- Nothing between two instants lies in an interval. -/
def Empty (intervals : List (Time × Time)) (source target : Time) : Prop :=
  ∀ interval ∈ intervals, interval.2 ≤ source ∨ target ≤ interval.1

omit [LinearOrder Time] in
theorem mem_hole (source target : Time) (gap : Time × Time) :
    gap ∈ hole reported source target ↔ gap = (source, target) ∧ reported source target = true := by
  unfold hole
  split
  · rename_i long
    simp [long]
  · rename_i short
    simp [short]

theorem sweep_append (cursor : Time) (intervals more : List (Time × Time)) :
    sweep reported cursor (intervals ++ more) =
      ((sweep reported cursor intervals).1 ++
          (sweep reported (sweep reported cursor intervals).2 more).1,
        (sweep reported (sweep reported cursor intervals).2 more).2) := by
  induction intervals generalizing cursor with
  | nil => simp [sweep]
  | cons interval rest ih => simp [sweep, ih]

section

variable (cursor : Time) (intervals : List (Time × Time))

theorem cursor_le_end : cursor ≤ (sweep reported cursor intervals).2 := by
  induction intervals generalizing cursor with
  | nil => exact le_refl cursor
  | cons interval rest ih => exact le_trans (le_max_left _ _) (ih (max cursor interval.2))

theorem interval_le_end (interval : Time × Time) (present : interval ∈ intervals) :
    interval.2 ≤ (sweep reported cursor intervals).2 := by
  induction intervals generalizing cursor with
  | nil => cases present
  | cons head rest ih =>
    rcases mem_cons.mp present with same | deeper
    · rw [same]
      exact le_trans (le_max_right cursor head.2) (cursor_le_end reported (max cursor head.2) rest)
    · exact ih (max cursor head.2) deeper

theorem gap_bounds (gap : Time × Time) (found : gap ∈ (sweep reported cursor intervals).1) :
    reported gap.1 gap.2 = true ∧ cursor ≤ gap.1 ∧ ∃ interval ∈ intervals, gap.2 = interval.1 := by
  induction intervals generalizing cursor with
  | nil => cases found
  | cons interval rest ih =>
    rcases mem_append.mp found with here | later
    · obtain ⟨same, long⟩ := (mem_hole reported cursor interval.1 gap).mp here
      subst same
      exact ⟨long, le_refl cursor, interval, mem_cons_self, rfl⟩
    · obtain ⟨long, after, next, present, ends⟩ := ih (max cursor interval.2) later
      exact ⟨long, le_trans (le_max_left _ _) after, next, mem_cons_of_mem _ present, ends⟩

theorem gap_empty (ordered : Ordered intervals) (gap : Time × Time)
    (found : gap ∈ (sweep reported cursor intervals).1) : Empty intervals gap.1 gap.2 := by
  induction intervals generalizing cursor with
  | nil => cases found
  | cons interval rest ih =>
    obtain ⟨first, ordered'⟩ := pairwise_cons.mp ordered
    intro other present
    rcases mem_append.mp found with here | later
    · obtain ⟨same, -⟩ := (mem_hole reported cursor interval.1 gap).mp here
      subst same
      right
      rcases mem_cons.mp present with same | deeper
      · rw [same]
      · exact first other deeper
    · rcases mem_cons.mp present with same | deeper
      · left
        obtain ⟨-, after, -⟩ := gap_bounds reported (max cursor interval.2) rest gap later
        rw [same]
        exact le_trans (le_max_right _ _) after
      · exact ih (max cursor interval.2) ordered' later other deeper

/-- A hole ends before the next one begins. -/
theorem gaps_apart (proper : ∀ interval ∈ intervals, interval.1 ≤ interval.2) :
    (sweep reported cursor intervals).1.Pairwise fun earlier later => earlier.2 ≤ later.1 := by
  induction intervals generalizing cursor with
  | nil => exact List.Pairwise.nil
  | cons interval rest ih =>
    have apart := ih (max cursor interval.2) fun other present =>
      proper other (mem_cons_of_mem _ present)
    apply pairwise_append.mpr
    refine ⟨?_, apart, ?_⟩
    · unfold hole
      split
      · exact pairwise_singleton _ _
      · exact List.Pairwise.nil
    · intro gap here next later
      obtain ⟨same, -⟩ := (mem_hole reported cursor interval.1 gap).mp here
      obtain ⟨-, after, -⟩ := gap_bounds reported (max cursor interval.2) rest next later
      calc
        gap.2 = interval.1 := by rw [same]
        _ ≤ interval.2 := proper interval mem_cons_self
        _ ≤ max cursor interval.2 := le_max_right _ _
        _ ≤ next.1 := after

theorem passed_cases (ordered : Ordered intervals) (instant : Time) (after : cursor ≤ instant)
    (passed : instant < (sweep reported cursor intervals).2) :
    (∃ interval ∈ intervals, interval.1 ≤ instant ∧ instant < interval.2) ∨
      (∃ gap ∈ (sweep reported cursor intervals).1, gap.1 ≤ instant ∧ instant < gap.2) ∨
      ∃ source target, cursor ≤ source ∧ source ≤ instant ∧ instant < target ∧
        reported source target = false ∧ Empty intervals source target := by
  induction intervals generalizing cursor with
  | nil => exact absurd (lt_of_le_of_lt after passed) (lt_irrefl cursor)
  | cons interval rest ih =>
    obtain ⟨first, ordered'⟩ := pairwise_cons.mp ordered
    by_cases before : instant < interval.1
    · right
      by_cases long : reported cursor interval.1 = true
      · left
        have found : (cursor, interval.1) ∈ hole reported cursor interval.1 :=
          (mem_hole reported cursor interval.1 _).mpr ⟨rfl, long⟩
        exact ⟨(cursor, interval.1), mem_append_left _ found, after, before⟩
      · right
        refine ⟨cursor, interval.1, le_refl cursor, after, before, by simpa using long, ?_⟩
        intro other present
        right
        rcases mem_cons.mp present with same | deeper
        · rw [same]
        · exact first other deeper
    · have begun : interval.1 ≤ instant := not_lt.mp before
      by_cases inside : instant < interval.2
      · exact Or.inl ⟨interval, mem_cons_self, begun, inside⟩
      · have later : max cursor interval.2 ≤ instant := max_le after (not_lt.mp inside)
        rcases ih (max cursor interval.2) ordered' later passed with
          ⟨other, present, within⟩ | ⟨gap, found, within⟩ |
            ⟨source, target, start, from', to', short, empty⟩
        · exact Or.inl ⟨other, mem_cons_of_mem _ present, within⟩
        · exact Or.inr (Or.inl ⟨gap, mem_append_right _ found, within⟩)
        · refine Or.inr (Or.inr ⟨source, target, le_trans (le_max_left _ _) start, from', to',
            short, ?_⟩)
          intro other present
          rcases mem_cons.mp present with same | deeper
          · left
            rw [same]
            exact le_trans (le_max_right _ _) start
          · exact empty other deeper

end

end Sweep

end DracVms.IntervalSweep
