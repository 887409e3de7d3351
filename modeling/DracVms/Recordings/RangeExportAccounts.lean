import DracVms.Recordings.RangeExportCoverage

namespace DracVms.RangeExport

open List IntervalSweep
open JsString (Unicode)

section Request

variable (input : PlanRangeExportInput)

/-- Some usable segment holds this instant. -/
def PlanRangeExportInput.Recorded (instant : Rat) : Prop :=
  ∃ raw ∈ input.segments, ∃ startMs endMs, raw.Usable startMs endMs ∧ startMs ≤ instant ∧
    instant < endMs

/-- Whole milliseconds take no more than the slack off the end of any segment. -/
def PlanRangeExportInput.Precise (slack : Rat) : Prop :=
  0 ≤ slack ∧ ∀ raw ∈ input.segments, ∀ startMs endMs, raw.Usable startMs endMs →
    endMs ≤ round endMs + slack

def PlanRangeExportInput.WholeEnds : Prop :=
  ∀ raw ∈ input.segments, ∀ startMs endMs, raw.Usable startMs endMs → (round endMs : Rat) = endMs

def PlanRangeExportInput.WholeMargin (strategy : RangeExportStrategy) : Prop :=
  (round (input.marginMs strategy) : Rat) = input.marginMs strategy

/-- The usable segments that have a part in the window. -/
def PlanRangeExportInput.Meets (fromMs toMs startMs : Int) (endMs : Rat) : Prop :=
  startMs < toMs ∧ fromMs < endMs ∧ ∃ raw ∈ input.segments, raw.Usable startMs endMs

/-- No segment of the window goes on after one that began later has ended. -/
def PlanRangeExportInput.Unnested (fromMs toMs : Int) : Prop :=
  ∀ startMs endMs startMs' endMs', input.Meets fromMs toMs startMs endMs →
    input.Meets fromMs toMs startMs' endMs' → startMs ≤ startMs' → endMs ≤ endMs'

/-- The segments that begin before the window have the same to give before it. -/
def PlanRangeExportInput.SameLead (fromMs toMs : Int) (margemMs : Rat) : Prop :=
  ∀ startMs endMs startMs' endMs', input.Meets fromMs toMs startMs endMs →
    input.Meets fromMs toMs startMs' endMs' → startMs < fromMs → startMs' < fromMs →
    max (startMs : Rat) (fromMs - margemMs) = max (startMs' : Rat) (fromMs - margemMs)

end Request

section Plan

variable (plan : RangeExportPlan)

def RangeExportPlan.InRequest (instant : Rat) : Prop :=
  plan.requestedFrom ≤ instant ∧ instant < plan.requestedTo

/-- Some part plays this instant, or the slack after its end does. -/
def RangeExportPlan.Plays (slack instant : Rat) : Prop :=
  ∃ part ∈ plan.parts, part.fromMs ≤ instant ∧ instant < part.toMs + slack

/-- A hole between the parts that is no longer than the tolerance. -/
def RangeExportPlan.InShortHole (toleranceMs instant : Rat) : Prop :=
  ∃ source target, source ≤ instant ∧ instant < target ∧ target - source ≤ toleranceMs ∧
    ∀ part ∈ plan.parts, part.toMs ≤ source ∨ target ≤ part.fromMs

end Plan

/-- What a plan says about the window it was asked for. -/
structure Accounts (input : PlanRangeExportInput) (plan : RangeExportPlan) : Prop where
  covered : plan.truncated = false → ∀ slack, input.Precise slack → ∀ instant,
    plan.InRequest instant → input.Recorded instant → plan.Plays slack instant
  drawn : ∀ part ∈ plan.parts, ∃ startMs endMs,
    input.Meets plan.requestedFrom plan.requestedTo startMs endMs ∧
      part.segmentStartedAt = startMs ∧ startMs ≤ part.fromMs ∧ part.toMs ≤ round endMs
  gaps_inside : ∀ gap ∈ plan.gaps, plan.requestedFrom ≤ gap.source ∧ gap.source < gap.target ∧
    gap.target ≤ plan.requestedTo ∧ input.toleranceMs < gap.target - gap.source ∧
      gap.seconds = roundSeconds (gap.target - gap.source)
  gaps_unrecorded : plan.truncated = false → ∀ slack, input.Precise slack → ∀ gap ∈ plan.gaps,
    ∀ instant, gap.source + slack ≤ instant → instant < gap.target → ¬input.Recorded instant
  made_up : ∀ instant, plan.InRequest instant →
    plan.Plays 0 instant ∨ (∃ gap ∈ plan.gaps, gap.source ≤ instant ∧ instant < gap.target) ∨
      plan.InShortHole input.toleranceMs instant
  offsets : ∀ before part after, plan.parts = before ++ part :: after →
    Within ((before.length + 1) / 2) (part.offsetSeconds * 1000)
      ((before.map RangeExportPart.durationSeconds).sum * 1000)
  offsets_whole : input.WholeEnds → input.WholeMargin plan.strategy →
    ∀ before part after, plan.parts = before ++ part :: after →
      part.offsetSeconds = (before.map RangeExportPart.durationSeconds).sum
  coveredFrom_least : ∀ instant, plan.coveredFrom = some instant →
    (∃ part ∈ plan.parts, part.fromMs = instant) ∧ ∀ part ∈ plan.parts, instant ≤ part.fromMs
  coveredTo_greatest : input.Unnested plan.requestedFrom plan.requestedTo →
    ∀ instant, plan.coveredTo = some instant →
      (∃ part ∈ plan.parts, part.toMs = instant) ∧ ∀ part ∈ plan.parts, part.toMs ≤ instant
  covered_none : (plan.coveredFrom = none ↔ plan.parts = []) ∧
    (plan.coveredTo = none ↔ plan.parts = [])
  leadIn : input.WholeMargin plan.strategy →
    input.SameLead plan.requestedFrom plan.requestedTo (input.marginMs plan.strategy) →
    ∀ instant, plan.coveredFrom = some instant →
      plan.leadInSeconds = max 0 (plan.requestedFrom - instant) / 1000
  leadOut : input.Unnested plan.requestedFrom plan.requestedTo →
    ∀ instant, plan.coveredTo = some instant →
      plan.leadOutSeconds = max 0 (instant - plan.requestedTo) / 1000

section Proofs

variable {input : PlanRangeExportInput} {plan : RangeExportPlan} {selected : List Candidate}

theorem Assembled.meets [Unicode] (assembled : Assembled input plan selected) (current : Candidate)
    (chosen : current ∈ selected) : InWindow plan.requestedFrom plan.requestedTo current ∧
      input.Meets plan.requestedFrom plan.requestedTo current.startMs current.endMs := by
  obtain ⟨raw, present, found⟩ := mem_filterMap.mp (assembled.drawn current chosen)
  obtain ⟨usable, inside⟩ := candidateOf_eq_some _ _ raw current found
  exact ⟨inside, inside.begins, inside.ends, raw, present, usable⟩

theorem Assembled.part_of [Unicode] (assembled : Assembled input plan selected)
    (part : RangeExportPart) (present : part ∈ plan.parts) :
    ∃ current ∈ selected, part.segmentStartedAt = current.startMs ∧
      part.fromMs = round (mediaFrom plan.requestedFrom (input.marginMs plan.strategy) current) ∧
      part.toMs = round (mediaTo plan.requestedTo (input.marginMs plan.strategy) current) := by
  rw [assembled.parts] at present
  obtain ⟨current, chosen, offsetMs, same⟩ := mem_partsFrom _ _ _ _ _ part present
  refine ⟨current, chosen, by rw [same]; rfl, ?_, ?_⟩
  · rw [same, partAt_fromMs]
  · rw [same, partAt_toMs]

theorem Assembled.part_for [Unicode] (assembled : Assembled input plan selected) (current : Candidate)
    (chosen : current ∈ selected) : ∃ part ∈ plan.parts,
      part.fromMs = round (mediaFrom plan.requestedFrom (input.marginMs plan.strategy) current) ∧
      part.toMs = round (mediaTo plan.requestedTo (input.marginMs plan.strategy) current) := by
  have mapped : media plan.requestedFrom plan.requestedTo (input.marginMs plan.strategy) current ∈
      plan.parts.map interval := by
    rw [assembled.parts, partsFrom_interval]
    exact mem_map_of_mem chosen
  obtain ⟨part, present, same⟩ := mem_map.mp mapped
  obtain ⟨begins, ends⟩ := Prod.mk.inj same
  exact ⟨part, present, begins, ends⟩

theorem round_mediaFrom_le (fromMs : Int) (margemMs : Rat) (current : Candidate) (instant : Rat)
    (margin : 0 ≤ margemMs) (window : fromMs ≤ instant) (begun : current.startMs ≤ instant) :
    (round (mediaFrom fromMs margemMs current) : Rat) ≤ instant := by
  have below : mediaFrom fromMs margemMs current ≤ (max current.startMs fromMs : Int) := by
    push_cast
    apply max_le_max (le_refl _)
    linarith
  have rounded := round_mono _ _ below
  rw [round_int] at rounded
  have cast : (round (mediaFrom fromMs margemMs current) : Rat) ≤
      (max current.startMs fromMs : Int) := by exact_mod_cast rounded
  push_cast at cast
  exact le_trans cast (max_le begun window)

theorem lt_round_mediaTo (toMs : Int) (margemMs : Rat) (current : Candidate) (slack instant : Rat)
    (margin : 0 ≤ margemMs) (nonneg : 0 ≤ slack)
    (near : current.endMs ≤ round current.endMs + slack) (window : instant < toMs)
    (going : instant < current.endMs) :
    instant < round (mediaTo toMs margemMs current) + slack := by
  unfold mediaTo
  by_cases short : current.endMs ≤ toMs + margemMs
  · rw [min_eq_left short]
    exact lt_of_lt_of_le going near
  · rw [min_eq_right (le_of_not_ge short)]
    have after : ((toMs : Int) : Rat) ≤ toMs + margemMs := by linarith
    have rounded := round_mono _ _ after
    rw [round_int] at rounded
    have cast : (toMs : Rat) ≤ round (toMs + margemMs) := by exact_mod_cast rounded
    linarith

theorem Assembled.covered [Unicode] (assembled : Assembled input plan selected)
    (whole : plan.truncated = false) (slack : Rat) (precise : input.Precise slack) (instant : Rat)
    (asked : plan.InRequest instant) (recorded : input.Recorded instant) :
    plan.Plays slack instant := by
  obtain ⟨raw, present, startMs, endMs, usable, begun, going⟩ := recorded
  have begins : startMs < plan.requestedTo := by exact_mod_cast lt_of_le_of_lt begun asked.2
  have ends : (plan.requestedFrom : Rat) < endMs := lt_of_le_of_lt asked.1 going
  obtain ⟨current, found, sameStart, sameEnd⟩ :=
    candidateOf_usable _ _ raw startMs endMs usable begins ends
  have chosen : current ∈ selected :=
    assembled.complete whole current (mem_filterMap.mpr ⟨raw, present, found⟩)
  obtain ⟨part, planned, fromMs, toMs⟩ := assembled.part_for current chosen
  have margin := input.marginMs_nonneg plan.strategy
  have near : current.endMs ≤ round current.endMs + slack := by
    rw [sameEnd]
    exact precise.2 raw present startMs endMs usable
  refine ⟨part, planned, ?_, ?_⟩
  · rw [fromMs]
    exact round_mediaFrom_le _ _ current instant margin asked.1 (by rw [sameStart]; exact begun)
  · rw [toMs]
    exact lt_round_mediaTo _ _ current slack instant margin precise.1 near asked.2
      (by rw [sameEnd]; exact going)

theorem Assembled.part_drawn [Unicode] (assembled : Assembled input plan selected)
    (part : RangeExportPart) (present : part ∈ plan.parts) :
    ∃ startMs endMs, input.Meets plan.requestedFrom plan.requestedTo startMs endMs ∧
      part.segmentStartedAt = startMs ∧ startMs ≤ part.fromMs ∧ part.toMs ≤ round endMs := by
  obtain ⟨current, chosen, started, fromMs, toMs⟩ := assembled.part_of part present
  have first := round_mono _ _ (le_max_left (current.startMs : Rat)
    (plan.requestedFrom - input.marginMs plan.strategy))
  rw [round_int] at first
  have last := round_mono _ _ (min_le_left current.endMs
    (plan.requestedTo + input.marginMs plan.strategy))
  refine ⟨current.startMs, current.endMs, (assembled.meets current chosen).2, started, ?_, ?_⟩
  · rw [fromMs]
    exact_mod_cast first
  · rw [toMs]
    exact_mod_cast last

theorem Assembled.part_begins [Unicode] (assembled : Assembled input plan selected)
    (part : RangeExportPart) (present : part ∈ plan.parts) : part.fromMs ≤ plan.requestedTo := by
  obtain ⟨current, chosen, -, fromMs, -⟩ := assembled.part_of part present
  have window : (plan.requestedFrom : Rat) ≤ plan.requestedTo := by
    exact_mod_cast le_of_lt assembled.window
  have begins : (current.startMs : Rat) ≤ plan.requestedTo := by
    exact_mod_cast le_of_lt (assembled.meets current chosen).1.begins
  rw [fromMs]
  exact round_mediaFrom_le _ _ current plan.requestedTo (input.marginMs_nonneg plan.strategy)
    window begins

theorem mediaFrom_mono (fromMs : Int) (margemMs : Rat) (a b : Candidate)
    (earlier : a.startMs ≤ b.startMs) :
    round (mediaFrom fromMs margemMs a) ≤ round (mediaFrom fromMs margemMs b) := by
  apply round_mono
  apply max_le_max _ (le_refl _)
  exact_mod_cast earlier

theorem mediaTo_mono (toMs : Int) (margemMs : Rat) (a b : Candidate) (earlier : a.endMs ≤ b.endMs) :
    round (mediaTo toMs margemMs a) ≤ round (mediaTo toMs margemMs b) := by
  apply round_mono
  exact min_le_min earlier (le_refl _)

variable (instant : Rat)

section

variable [Unicode] (assembled : Assembled input plan selected)

include assembled

theorem Assembled.ordered : Ordered (plan.parts.map interval ++
      [((plan.requestedTo : Rat), (plan.requestedTo : Rat))]) := by
  apply pairwise_append.mpr
  refine ⟨?_, pairwise_singleton _ _, ?_⟩
  · rw [assembled.parts, partsFrom_interval, pairwise_map]
    apply assembled.sorted.imp
    intro a b earlier
    exact Int.cast_le.mpr (mediaFrom_mono _ _ a b earlier)
  · intro played mapped closing last
    obtain ⟨part, present, same⟩ := mem_map.mp mapped
    rw [mem_singleton.mp last, ← same]
    exact assembled.part_begins part present

theorem Assembled.gap_of (gap : RangeExportGap) (present : gap ∈ plan.gaps) :
    (plan.requestedFrom ≤ gap.source ∧ gap.target ≤ plan.requestedTo ∧
      input.toleranceMs < gap.target - gap.source ∧
        gap.seconds = roundSeconds (gap.target - gap.source)) ∧
      ∀ part ∈ plan.parts, part.toMs ≤ gap.source ∨ gap.target ≤ part.fromMs := by
  rw [assembled.gaps] at present
  obtain ⟨hole, found, same⟩ := mem_map.mp present
  subst same
  obtain ⟨long, after, next, listed, ends⟩ := gap_bounds _ _ _ hole found
  have empty := gap_empty _ _ _ assembled.ordered hole found
  have before : hole.2 ≤ plan.requestedTo := by
    rw [ends]
    rcases mem_append.mp listed with mapped | last
    · obtain ⟨part, planned, same⟩ := mem_map.mp mapped
      rw [← same]
      exact assembled.part_begins part planned
    · rw [mem_singleton.mp last]
  refine ⟨⟨after, before, of_decide_eq_true long, rfl⟩, ?_⟩
  intro part planned
  exact empty (interval part) (mem_append_left _ (mem_map_of_mem planned))

theorem Assembled.gap_inside (gap : RangeExportGap) (present : gap ∈ plan.gaps) :
    plan.requestedFrom ≤ gap.source ∧ gap.source < gap.target ∧
      gap.target ≤ plan.requestedTo ∧ input.toleranceMs < gap.target - gap.source ∧
        gap.seconds = roundSeconds (gap.target - gap.source) := by
  obtain ⟨⟨after, before, long, counted⟩, -⟩ := assembled.gap_of gap present
  have tolerance := input.toleranceMs_nonneg
  exact ⟨after, by linarith, before, long, counted⟩

theorem Assembled.gap_unrecorded (whole : plan.truncated = false) (slack : Rat)
    (precise : input.Precise slack) (gap : RangeExportGap) (present : gap ∈ plan.gaps)
    (instant : Rat) (after : gap.source + slack ≤ instant) (before : instant < gap.target) :
    ¬input.Recorded instant := by
  intro recorded
  obtain ⟨⟨begins, ends, -, -⟩, empty⟩ := assembled.gap_of gap present
  have nonneg := precise.1
  have asked : plan.InRequest instant := ⟨by linarith, by linarith⟩
  obtain ⟨part, planned, begun, going⟩ :=
    assembled.covered whole slack precise instant asked recorded
  rcases empty part planned with earlier | later
  all_goals linarith

theorem Assembled.made_up (asked : plan.InRequest instant) :
    plan.Plays 0 instant ∨ (∃ gap ∈ plan.gaps, gap.source ≤ instant ∧ instant < gap.target) ∨
      plan.InShortHole input.toleranceMs instant := by
  have closing := interval_le_end (longer input.toleranceMs) plan.requestedFrom
    (plan.parts.map interval ++ [((plan.requestedTo : Rat), (plan.requestedTo : Rat))])
    (plan.requestedTo, plan.requestedTo) (mem_append_right _ mem_cons_self)
  rcases passed_cases (longer input.toleranceMs) plan.requestedFrom _ assembled.ordered instant
      asked.1 (lt_of_lt_of_le asked.2 closing) with
    ⟨played, listed, begun, going⟩ | ⟨hole, found, begun, going⟩ |
      ⟨source, target, -, begun, going, short, empty⟩
  · left
    rcases mem_append.mp listed with mapped | last
    · obtain ⟨part, planned, same⟩ := mem_map.mp mapped
      rw [← same] at begun going
      exact ⟨part, planned, begun, by rw [add_zero]; exact going⟩
    · rw [mem_singleton.mp last] at begun
      exact absurd asked.2 (not_lt.mpr begun)
  · right
    left
    refine ⟨gapOf hole, ?_, begun, going⟩
    rw [assembled.gaps]
    exact mem_map_of_mem found
  · right
    right
    refine ⟨source, target, begun, going, not_lt.mp (of_decide_eq_false short), ?_⟩
    intro part planned
    exact empty (interval part) (mem_append_left _ (mem_map_of_mem planned))

end

theorem within_round (x : Rat) : Within (1 / 2) x (round x) :=
  ⟨le_of_lt (lt_round x), round_le x⟩

theorem Assembled.offset [Unicode] (assembled : Assembled input plan selected)
    (before : List RangeExportPart) (part : RangeExportPart) (after : List RangeExportPart)
    (split : plan.parts = before ++ part :: after) :
    Within ((before.length + 1) / 2) (part.offsetSeconds * 1000)
      ((before.map RangeExportPart.durationSeconds).sum * 1000) := by
  rw [assembled.parts] at split
  obtain ⟨passed, offset, ⟨above, below⟩, -⟩ := partsFrom_offset _ _ _ (1 / 2) 0 selected
    (fun current _ => within_round _) before part after split
  obtain ⟨atLeast, atMost⟩ := within_round passed
  rw [offset, zero_add, seconds_mul]
  constructor
  all_goals linarith

variable (x y : Rat)

theorem round_max (wholeX : (round x : Rat) = x) (wholeY : (round y : Rat) = y) :
    (round (max x y) : Rat) = max x y := by
  rcases le_total x y with le | le
  · rw [max_eq_right le, wholeY]
  · rw [max_eq_left le, wholeX]

theorem round_min (wholeX : (round x : Rat) = x) (wholeY : (round y : Rat) = y) :
    (round (min x y) : Rat) = min x y := by
  rcases le_total x y with le | le
  · rw [min_eq_left le, wholeX]
  · rw [min_eq_right le, wholeY]

theorem round_whole (k : Int) : (round (k : Rat) : Rat) = k := by
  rw [round_int]

theorem round_add (wholeX : (round x : Rat) = x) (wholeY : (round y : Rat) = y) :
    (round (x + y) : Rat) = x + y := by
  rw [← wholeX, round_shift, ← wholeY, round_int]
  push_cast
  rfl

theorem round_subtract (wholeX : (round x : Rat) = x) (wholeY : (round y : Rat) = y) :
    (round (x - y) : Rat) = x - y := by
  have cast : x - y = ((round x - round y : Int) : Rat) := by
    push_cast
    rw [wholeX, wholeY]
  rw [cast, round_int]

section

variable [Unicode] (assembled : Assembled input plan selected)

include assembled

theorem Assembled.offset_whole (ends : input.WholeEnds) (margin : input.WholeMargin plan.strategy)
    (before : List RangeExportPart) (part : RangeExportPart) (after : List RangeExportPart)
    (split : plan.parts = before ++ part :: after) :
    part.offsetSeconds = (before.map RangeExportPart.durationSeconds).sum := by
  have near : ∀ current ∈ selected, Within 0
      (mediaTo plan.requestedTo (input.marginMs plan.strategy) current -
        mediaFrom plan.requestedFrom (input.marginMs plan.strategy) current)
      (round (mediaTo plan.requestedTo (input.marginMs plan.strategy) current -
        mediaFrom plan.requestedFrom (input.marginMs plan.strategy) current)) := by
    intro current chosen
    obtain ⟨-, -, -, raw, present, usable⟩ := assembled.meets current chosen
    have wholeEnd := ends raw present current.startMs current.endMs usable
    have stop : (round (mediaTo plan.requestedTo (input.marginMs plan.strategy) current) : Rat) =
        mediaTo plan.requestedTo (input.marginMs plan.strategy) current :=
      round_min _ _ wholeEnd (round_add _ _ (round_whole _) margin)
    have start : (round (mediaFrom plan.requestedFrom (input.marginMs plan.strategy) current) :
        Rat) = mediaFrom plan.requestedFrom (input.marginMs plan.strategy) current :=
      round_max _ _ (round_whole _) (round_subtract _ _ (round_whole _) margin)
    rw [round_subtract _ _ stop start]
    simp [Within]
  rw [assembled.parts] at split
  obtain ⟨passed, offset, ⟨above, below⟩, whole, total⟩ :=
    partsFrom_offset _ _ _ 0 0 selected near before part after split
  have same : passed = whole := by
    linarith
  have counted : part.offsetSeconds * 1000 = whole := by
    rw [offset, zero_add, seconds_mul, same, round_int]
  linarith

theorem Assembled.selected_cons (covered : plan.coveredFrom = some instant) :
    ∃ first rest, selected = first :: rest ∧
      instant = round (mediaFrom plan.requestedFrom (input.marginMs plan.strategy) first) := by
  rw [assembled.coveredFrom, assembled.parts] at covered
  cases selected with
  | nil => cases covered
  | cons first rest =>
    refine ⟨first, rest, rfl, ?_⟩
    rw [← partAt_fromMs _ plan.requestedTo _ 0]
    exact (Option.some.inj covered).symm

theorem Assembled.covered_least (covered : plan.coveredFrom = some instant) :
    (∃ part ∈ plan.parts, part.fromMs = instant) ∧ ∀ part ∈ plan.parts, instant ≤ part.fromMs := by
  obtain ⟨first, rest, shape, same⟩ := assembled.selected_cons instant covered
  have head : first ∈ selected := by rw [shape]; exact mem_cons_self
  constructor
  · obtain ⟨part, planned, fromMs, -⟩ := assembled.part_for first head
    exact ⟨part, planned, by rw [fromMs, same]⟩
  · intro part planned
    obtain ⟨current, chosen, -, fromMs, -⟩ := assembled.part_of part planned
    have sorted := assembled.sorted
    rw [shape] at sorted chosen
    rw [fromMs, same]
    rcases mem_cons.mp chosen with here | later
    · rw [here]
    · exact_mod_cast mediaFrom_mono _ _ first current ((pairwise_cons.mp sorted).1 _ later)

theorem Assembled.selected_concat (covered : plan.coveredTo = some instant) :
    ∃ before last, selected = before ++ [last] ∧
      instant = round (mediaTo plan.requestedTo (input.marginMs plan.strategy) last) := by
  have played : (plan.parts.map interval).getLast?.map Prod.snd = some instant := by
    rw [List.getLast?_map, Option.map_map, ← covered, assembled.coveredTo]
    rfl
  rw [assembled.parts, partsFrom_interval] at played
  rcases eq_nil_or_concat' selected with none | ⟨before, last, shape⟩
  · rw [none] at played
    cases played
  · refine ⟨before, last, shape, ?_⟩
    rw [shape, map_append, map_singleton, List.getLast?_concat] at played
    exact (Option.some.inj played).symm

theorem Assembled.last_ends (unnested : input.Unnested plan.requestedFrom plan.requestedTo)
    (before : List Candidate) (last current : Candidate) (shape : selected = before ++ [last])
    (chosen : current ∈ selected) : current.endMs ≤ last.endMs := by
  have final : last ∈ selected := by
    rw [shape]
    exact mem_append_right _ mem_cons_self
  have sorted := assembled.sorted
  rw [shape] at sorted
  have earlier : current.startMs ≤ last.startMs := by
    rw [shape] at chosen
    rcases mem_append.mp chosen with inside | same
    · exact (pairwise_append.mp sorted).2.2 current inside last mem_cons_self
    · rw [mem_singleton.mp same]
  exact unnested _ _ _ _ (assembled.meets current chosen).2 (assembled.meets last final).2 earlier

theorem Assembled.covered_greatest (unnested : input.Unnested plan.requestedFrom plan.requestedTo)
    (instant : Rat) (covered : plan.coveredTo = some instant) :
    (∃ part ∈ plan.parts, part.toMs = instant) ∧ ∀ part ∈ plan.parts, part.toMs ≤ instant := by
  obtain ⟨before, last, shape, same⟩ := assembled.selected_concat instant covered
  have final : last ∈ selected := by
    rw [shape]
    exact mem_append_right _ mem_cons_self
  constructor
  · obtain ⟨part, planned, -, toMs⟩ := assembled.part_for last final
    exact ⟨part, planned, by rw [toMs, same]⟩
  · intro part planned
    obtain ⟨current, chosen, -, -, toMs⟩ := assembled.part_of part planned
    rw [toMs, same]
    exact_mod_cast mediaTo_mono _ _ current last
      (assembled.last_ends unnested before last current shape chosen)

theorem Assembled.lead_in (margin : input.WholeMargin plan.strategy)
    (alike : input.SameLead plan.requestedFrom plan.requestedTo (input.marginMs plan.strategy))
    (instant : Rat) (covered : plan.coveredFrom = some instant) :
    plan.leadInSeconds = max 0 (plan.requestedFrom - instant) / 1000 := by
  obtain ⟨first, rest, shape, same⟩ := assembled.selected_cons instant covered
  have head : first ∈ selected := by rw [shape]; exact mem_cons_self
  have whole : (round (mediaFrom plan.requestedFrom (input.marginMs plan.strategy) first) : Rat) =
      mediaFrom plan.requestedFrom (input.marginMs plan.strategy) first :=
    round_max _ _ (round_whole _) (round_subtract _ _ (round_whole _) margin)
  have nonneg := input.marginMs_nonneg plan.strategy
  rw [assembled.leadIn, same, whole]
  rcases joinPart_leadIn plan.requestedFrom plan.requestedTo _ ⟨[], 0, 0, 0⟩ selected nonneg
      assembled.window (fun current chosen => (assembled.meets current chosen).1) with
    ⟨clear, kept⟩ | ⟨current, chosen, straddles, lead⟩
  · have after : (plan.requestedFrom : Rat) ≤ first.startMs := by exact_mod_cast clear first head
    have begun : (plan.requestedFrom : Rat) ≤
        mediaFrom plan.requestedFrom (input.marginMs plan.strategy) first :=
      le_trans after (le_max_left _ _)
    rw [kept, max_eq_left (by linarith), roundSeconds]
    have nothing : round 0 = 0 := round_int 0
    rw [nothing]
    rfl
  · have sorted := assembled.sorted
    rw [shape] at sorted
    have earlier : first.startMs ≤ current.startMs := by
      rw [shape] at chosen
      rcases mem_cons.mp chosen with here | later
      · rw [here]
      · exact (pairwise_cons.mp sorted).1 current later
    have matching : mediaFrom plan.requestedFrom (input.marginMs plan.strategy) current =
        mediaFrom plan.requestedFrom (input.marginMs plan.strategy) first :=
      alike _ _ _ _ (assembled.meets current chosen).2 (assembled.meets first head).2 straddles
        (lt_of_le_of_lt earlier straddles)
    have begun : mediaFrom plan.requestedFrom (input.marginMs plan.strategy) first ≤
        plan.requestedFrom := by
      apply max_le
      · exact_mod_cast le_of_lt (lt_of_le_of_lt earlier straddles)
      · linarith
    rw [lead, matching, max_eq_right (by linarith), roundSeconds,
      round_subtract _ _ (round_whole _) whole]

theorem Assembled.lead_out (unnested : input.Unnested plan.requestedFrom plan.requestedTo)
    (instant : Rat) (covered : plan.coveredTo = some instant) :
    plan.leadOutSeconds = max 0 (instant - plan.requestedTo) / 1000 := by
  obtain ⟨before, last, shape, same⟩ := assembled.selected_concat instant covered
  have final : last ∈ selected := by
    rw [shape]
    exact mem_append_right _ mem_cons_self
  have nonneg := input.marginMs_nonneg plan.strategy
  have inside := fun current chosen => (assembled.meets current chosen).1
  rw [assembled.leadOut, same]
  by_cases straddles : (plan.requestedTo : Rat) < last.endMs
  · rw [shape, joinPart_leadOut_last _ _ _ _ before last nonneg assembled.window
      (inside last final) straddles, roundSeconds]
    have reached : (plan.requestedTo : Rat) ≤
        mediaTo plan.requestedTo (input.marginMs plan.strategy) last :=
      le_min (le_of_lt straddles) (by linarith)
    have rounded := round_mono _ _ reached
    rw [round_int] at rounded
    have cast : (plan.requestedTo : Rat) ≤
        round (mediaTo plan.requestedTo (input.marginMs plan.strategy) last) := by
      exact_mod_cast rounded
    have shifted := round_sub plan.requestedTo
      (mediaTo plan.requestedTo (input.marginMs plan.strategy) last)
    push_cast at shifted
    rw [max_eq_right (by linarith), ← shifted, add_sub_cancel_left]
  · have short : ∀ current ∈ selected, current.endMs ≤ plan.requestedTo := by
      intro current chosen
      exact le_trans (assembled.last_ends unnested before last current shape chosen)
        (not_lt.mp straddles)
    rw [joinPart_leadOut _ _ _ _ selected nonneg assembled.window inside short, roundSeconds]
    have stopped : mediaTo plan.requestedTo (input.marginMs plan.strategy) last ≤
        plan.requestedTo := le_trans (min_le_left _ _) (not_lt.mp straddles)
    have rounded := round_mono _ _ stopped
    rw [round_int] at rounded
    have cast : (round (mediaTo plan.requestedTo (input.marginMs plan.strategy) last) : Rat) ≤
        plan.requestedTo := by exact_mod_cast rounded
    have nothing : round 0 = 0 := round_int 0
    rw [max_eq_left (by linarith), nothing]
    rfl

end

end Proofs

local instance : Unicode := JsString.ascii

def byCharacter (a b : Json.Text) : Int := if a = b then 0 else if a < b then -1 else 1

def recorded (id : Json.Text) (startedAt endedAt : Int) : RangeSourceSegment :=
  ⟨id, id, some startedAt, some endedAt, none, "h264".toList, []⟩

def request (segments : List RangeSourceSegment) (source target : Int)
    (maxSegments : Option Rat) : PlanRangeExportInput :=
  ⟨segments, some source, some target, none, maxSegments, none, false⟩

/-- Half a second was not recorded. -/
def shortHole : PlanRangeExportInput :=
  request [recorded "b".toList 1500 3000, recorded "a".toList 0 1000] 0 3000 none

def cutShort : PlanRangeExportInput :=
  request [recorded "a".toList 0 1000, recorded "b".toList 1000 4000] 0 4000 (some 1)

/-- The second segment lies inside the first. -/
def nested : PlanRangeExportInput :=
  request [recorded "a".toList 0 9000, recorded "b".toList 1000 2000] 0 3000 none

/-- Two segments begin before the window. -/
def twoBefore : PlanRangeExportInput :=
  request [recorded "a".toList 0 9500, recorded "b".toList 8500 10000] 9000 10000 none

theorem ok_of_check {Error Value : Type} (result : Except Error Value) (holds : Value → Prop)
    [DecidablePred holds] (checked : result.toOption.any (fun value => holds value) = true) :
    ∃ value, result = .ok value ∧ holds value := by
  cases result with
  | error error => cases checked
  | ok value => exact ⟨value, rfl, of_decide_eq_true checked⟩

end DracVms.RangeExport
