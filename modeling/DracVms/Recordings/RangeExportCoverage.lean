import DracVms.Library.KeyedList
import DracVms.Recordings.RangeExportParts

namespace DracVms.RangeExport

open List IntervalSweep
open JsString (Unicode)

/-- A segment whose start and end the plan can use. -/
def RangeSourceSegment.Usable (raw : RangeSourceSegment) (startMs : Int) (endMs : Rat) : Prop :=
  raw.startedAt = some startMs ∧ raw.endMs startMs = some endMs

theorem RangeSourceSegment.usable_lasts (raw : RangeSourceSegment) (startMs : Int) (endMs : Rat)
    (usable : raw.Usable startMs endMs) : startMs < endMs := by
  have ended := usable.2
  unfold RangeSourceSegment.endMs at ended
  have byEnd : ∀ instant : Int, startMs < instant → (startMs : Rat) < instant := by
    intro instant later
    exact_mod_cast later
  grind

section Candidates

variable [Unicode]

/-- What one segment adds to the candidates. -/
def candidateOf (fromMs toMs : Int) (raw : RangeSourceSegment) : Option Candidate :=
  raw.startedAt.bind fun startMs =>
    (raw.endMs startMs).bind fun endMs =>
      if endMs ≤ fromMs ∨ toMs ≤ startMs then none
      else some ⟨raw.id, raw.filePath, startMs, endMs, normalizeCodec raw.videoCodec,
        normalizeCodec raw.audioCodec⟩

variable (fromMs toMs : Int)

theorem collect_candidates (so : List Candidate × Nat) (raw : RangeSourceSegment) :
    (collect fromMs toMs so raw).1 = so.1 ++ (candidateOf fromMs toMs raw).toList := by
  unfold collect candidateOf
  cases started : raw.startedAt with
  | none => simp
  | some startMs =>
    cases ended : raw.endMs startMs with
    | none =>
      simp only [Option.bind_some, ended, Option.bind_none, Option.toList_none, append_nil]
      split <;> rfl
    | some endMs =>
      simp only [Option.bind_some, ended]
      split <;> simp

theorem collect_run (so : List Candidate × Nat) (segments : List RangeSourceSegment) :
    (segments.foldl (collect fromMs toMs) so).1 =
      so.1 ++ segments.filterMap (candidateOf fromMs toMs) := by
  induction segments generalizing so with
  | nil => simp
  | cons raw rest ih =>
    rw [foldl_cons, ih, collect_candidates, filterMap_cons, append_assoc]
    cases candidateOf fromMs toMs raw with
    | none | some current => simp

theorem candidateOf_eq_some (raw : RangeSourceSegment) (current : Candidate)
    (found : candidateOf fromMs toMs raw = some current) :
    raw.Usable current.startMs current.endMs ∧ InWindow fromMs toMs current := by
  obtain ⟨startMs, started, found⟩ := Option.bind_eq_some_iff.mp found
  obtain ⟨endMs, ended, found⟩ := Option.bind_eq_some_iff.mp found
  split at found
  · cases found
  · rename_i meets
    have usable : raw.Usable startMs endMs := ⟨started, ended⟩
    obtain ⟨ends, begins⟩ := not_or.mp meets
    cases Option.some.inj found
    exact ⟨usable, raw.usable_lasts startMs endMs usable, not_le.mp begins, not_le.mp ends⟩

theorem candidateOf_usable (raw : RangeSourceSegment) (startMs : Int) (endMs : Rat)
    (usable : raw.Usable startMs endMs) (begins : startMs < toMs) (ends : fromMs < endMs) :
    ∃ current, candidateOf fromMs toMs raw = some current ∧ current.startMs = startMs ∧
      current.endMs = endMs := by
  have meets : ¬(endMs ≤ fromMs ∨ toMs ≤ startMs) :=
    not_or.mpr ⟨not_le.mpr ends, not_le.mpr begins⟩
  refine ⟨⟨raw.id, raw.filePath, startMs, endMs, normalizeCodec raw.videoCodec,
    normalizeCodec raw.audioCodec⟩, ?_, rfl, rfl⟩
  simp [candidateOf, usable.1, usable.2, meets]

theorem candidates_inWindow (segments : List RangeSourceSegment) (current : Candidate)
    (present : current ∈ segments.filterMap (candidateOf fromMs toMs)) :
    InWindow fromMs toMs current := by
  obtain ⟨raw, -, found⟩ := mem_filterMap.mp present
  exact (candidateOf_eq_some fromMs toMs raw current found).2

end Candidates

variable (localeCompare : Json.Text → Json.Text → Int)

theorem candidateBefore_start (a b : Candidate) (before : candidateBefore localeCompare a b) :
    a.startMs ≤ b.startMs := by
  rcases before with earlier | ⟨same, -⟩
  all_goals omega

theorem not_candidateBefore_start (a b : Candidate) (after : ¬candidateBefore localeCompare a b) :
    b.startMs ≤ a.startMs := by
  apply not_lt.mp
  intro earlier
  exact after (Or.inl earlier)

variable (input : PlanRangeExportInput)

theorem PlanRangeExportInput.toleranceMs_nonneg : 0 ≤ input.toleranceMs :=
  le_max_left 0 _

theorem PlanRangeExportInput.marginMs_nonneg (strategy : RangeExportStrategy) :
    0 ≤ input.marginMs strategy := by
  have safety : 0 ≤ max 0 (input.copySafetySeconds.getD defaultCopySafetySeconds) :=
    le_max_left 0 _
  unfold PlanRangeExportInput.marginMs
  split
  · linarith
  · exact le_refl 0

def gapOf (hole : Rat × Rat) : RangeExportGap :=
  ⟨hole.1, hole.2, roundSeconds (hole.2 - hole.1)⟩

def longer (toleranceMs source target : Rat) : Bool := toleranceMs < target - source

theorem gapBetween_eq (toleranceMs source target : Rat) : gapBetween toleranceMs source target =
      (hole (longer toleranceMs) source target).map gapOf := by
  unfold gapBetween hole longer
  by_cases long : toleranceMs < target - source
  · simp [long, gapOf]
  · simp [long]

theorem findGap_sweep (toleranceMs : Rat) (so : List RangeExportGap × Rat)
    (parts : List RangeExportPart) : parts.foldl (findGap toleranceMs) so =
      (so.1 ++ (sweep (longer toleranceMs) so.2 (parts.map interval)).1.map gapOf,
        (sweep (longer toleranceMs) so.2 (parts.map interval)).2) := by
  induction parts generalizing so with
  | nil => simp [sweep]
  | cons part rest ih =>
    rw [foldl_cons, ih, map_cons, sweep, map_append, ← gapBetween_eq, ← append_assoc]
    rfl

variable [Unicode]

/-- What a plan is made of, once the segments are chosen. -/
structure Assembled (input : PlanRangeExportInput) (plan : RangeExportPlan)
    (selected : List Candidate) : Prop where
  window : plan.requestedFrom < plan.requestedTo
  sorted : selected.Pairwise fun a b => a.startMs ≤ b.startMs
  drawn : ∀ current ∈ selected, current ∈ input.segments.filterMap
    (candidateOf plan.requestedFrom plan.requestedTo)
  complete : plan.truncated = false →
    ∀ current ∈ input.segments.filterMap (candidateOf plan.requestedFrom plan.requestedTo),
      current ∈ selected
  parts : plan.parts = partsFrom plan.requestedFrom plan.requestedTo (input.marginMs plan.strategy)
    0 selected
  gaps : plan.gaps = (sweep (longer input.toleranceMs) plan.requestedFrom
    (plan.parts.map interval ++ [((plan.requestedTo : Rat), (plan.requestedTo : Rat))])).1.map gapOf
  coveredFrom : plan.coveredFrom = plan.parts.head?.map RangeExportPart.fromMs
  coveredTo : plan.coveredTo = plan.parts.getLast?.map RangeExportPart.toMs
  leadIn : plan.leadInSeconds = roundSeconds (selected.foldl
    (joinPart plan.requestedFrom plan.requestedTo (input.marginMs plan.strategy))
    ⟨[], 0, 0, 0⟩).leadInMs
  leadOut : plan.leadOutSeconds = roundSeconds (selected.foldl
    (joinPart plan.requestedFrom plan.requestedTo (input.marginMs plan.strategy))
    ⟨[], 0, 0, 0⟩).leadOutMs

theorem planSelected_assembled (fromMs toMs : Int) (truncated : Bool) (skipped : Nat)
    (selected : List Candidate) (window : fromMs < toMs)
    (sorted : selected.Pairwise fun a b => a.startMs ≤ b.startMs)
    (drawn : ∀ current ∈ selected, current ∈ input.segments.filterMap (candidateOf fromMs toMs))
    (complete : truncated = false → ∀ current ∈ input.segments.filterMap (candidateOf fromMs toMs),
      current ∈ selected) :
    Assembled input (planSelected input fromMs toMs truncated skipped selected) selected := by
  have inside : ∀ current ∈ selected, InWindow fromMs toMs current := fun current chosen =>
    candidates_inWindow fromMs toMs input.segments current (drawn current chosen)
  have margin := input.marginMs_nonneg (decideStrategy selected input.forceTranscode)
  have parts := joinPart_parts fromMs toMs _ ⟨[], 0, 0, 0⟩ selected margin window inside
  have gaps : ∀ parts : List RangeExportPart,
      (parts.foldl (findGap input.toleranceMs) ([], (fromMs : Rat))).1 ++
          gapBetween input.toleranceMs
            (parts.foldl (findGap input.toleranceMs) ([], (fromMs : Rat))).2 toMs =
        (sweep (longer input.toleranceMs) fromMs
          (parts.map interval ++ [((toMs : Rat), (toMs : Rat))])).1.map gapOf := by
    intro parts
    rw [findGap_sweep, sweep_append, map_append, gapBetween_eq]
    simp [sweep]
  exact {
    window := window
    sorted := sorted
    drawn := drawn
    complete := complete
    parts := parts
    gaps := gaps _
    coveredFrom := rfl
    coveredTo := rfl
    leadIn := rfl
    leadOut := rfl }

theorem planRangeExport_assembled (fromMs toMs : Int) (source : input.source = some fromMs)
    (target : input.target = some toMs) (window : fromMs < toMs) :
    ∃ plan, planRangeExport localeCompare input = .ok plan ∧ plan.requestedFrom = fromMs ∧
      plan.requestedTo = toMs ∧ ∃ selected, Assembled input plan selected := by
  let candidates := input.segments.filterMap (candidateOf fromMs toMs)
  let sorted := candidates.insertionSort (candidateBefore localeCompare)
  let maxSegments := max 1 (input.maxSegments.getD defaultMaxSegments).floor
  let truncated := decide (maxSegments < sorted.length)
  let selected := if truncated then sorted.take maxSegments.toNat else sorted
  let skipped := (input.segments.foldl (collect fromMs toMs) ([], 0)).2
  have collected : (input.segments.foldl (collect fromMs toMs) ([], 0)).1 = candidates :=
    collect_run fromMs toMs ([], 0) input.segments
  have byStart : sorted.Pairwise fun a b => a.startMs ≤ b.startMs :=
    KeyedList.insertionSort_byKey (candidateBefore localeCompare) Candidate.startMs
      (candidateBefore_start localeCompare) (not_candidateBefore_start localeCompare) candidates
  have same : ∀ current, current ∈ sorted ↔ current ∈ candidates := fun current =>
    (perm_insertionSort (candidateBefore localeCompare) candidates).mem_iff
  have drawn : ∀ current ∈ selected, current ∈ candidates := by
    intro current chosen
    apply (same current).mp
    unfold selected at chosen
    split at chosen
    · exact mem_of_mem_take chosen
    · exact chosen
  have ordered : selected.Pairwise fun a b => a.startMs ≤ b.startMs := by
    unfold selected
    split
    · exact byStart.sublist (take_sublist _ _)
    · exact byStart
  have complete : truncated = false → ∀ current ∈ candidates, current ∈ selected := by
    intro whole current present
    unfold selected
    rw [whole]
    exact (same current).mpr present
  refine ⟨planSelected input fromMs toMs truncated skipped selected, ?_, rfl, rfl, selected,
    planSelected_assembled input fromMs toMs truncated skipped selected window ordered drawn
      complete⟩
  unfold planRangeExport
  rw [source, target]
  simp only [not_le.mpr window, if_false, collected]
  rfl

end DracVms.RangeExport
