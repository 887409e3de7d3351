import DracVms.Playback.VodPlaylist

namespace DracVms.VodPlan

open List

open Json (Text)
open JsString (trim Unicode)

/-- The dates are none when they are missing or invalid, the number when it is not finite. -/
structure VodSourceSegment where
  id : Text
  startedAt : Option ℤ
  endedAt : Option ℤ
  durationSeconds : Option ℚ
  codec : Option Text

inductive VodDiscontinuityReason
  | gap
  | overlap
  | codec

structure VodPlaylistSegment where
  recordingId : Text
  startedAt : ℤ
  endedAt : ℤ
  durationSeconds : ℚ
  offsetSeconds : ℚ
  discontinuityReason : Option VodDiscontinuityReason
  codec : Option Text

def VodPlaylistSegment.discontinuity (segment : VodPlaylistSegment) : Bool :=
  segment.discontinuityReason.isSome

structure VodPlaylistPlan where
  fromMs : ℤ
  toMs : ℤ
  segments : List VodPlaylistSegment
  targetDurationSeconds : ℤ
  totalDurationSeconds : ℚ
  startOffsetSeconds : ℚ
  discontinuities : ℕ
  skipped : ℕ
  truncated : Bool
  coverage : Option ℤ × Option ℤ

structure PlanVodPlaylistInput where
  segments : List VodSourceSegment
  fromMs : Option ℤ
  toMs : Option ℤ
  gapToleranceSeconds : Option ℚ
  maxSegments : Option ℚ

def PlanVodPlaylistInput.toleranceMs (input : PlanVodPlaylistInput) : ℚ :=
  max 0 (input.gapToleranceSeconds.getD 1 * 1000)

def PlanVodPlaylistInput.most (input : PlanVodPlaylistInput) : ℕ :=
  (max 1 ⌊input.maxSegments.getD 720⌋).toNat

def roundSeconds (ms : ℚ) : ℚ := VodContinuous.round ms / 1000

def normalizeCodec [Unicode] (codec : Option Text) : Option Text :=
  let clean := Unicode.toLowerCase (trim (codec.getD []))
  if clean = [] then none else some clean

structure Candidate where
  id : Text
  startMs : ℤ
  endMs : ℚ
  codec : Option Text
  deriving DecidableEq

def Candidate.lengthMs (c : Candidate) : ℚ := c.endMs - c.startMs

def endOf (raw : VodSourceSegment) (startMs : ℤ) : Option ℚ :=
  match raw.endedAt.filter fun endMs => decide (startMs < endMs) with
  | some endMs => some endMs
  | none => (raw.durationSeconds.filter fun d => decide (0 < d)).map fun d => startMs + d * 1000

def candidateOf [Unicode] (fromMs toMs : ℤ) (raw : VodSourceSegment) : Option Candidate :=
  raw.startedAt.bind fun startMs => (endOf raw startMs).bind fun endMs =>
    if endMs ≤ fromMs ∨ toMs ≤ startMs then none
    else some ⟨raw.id, startMs, endMs, normalizeCodec raw.codec⟩

/-- No usable length, although it would be of the interval. -/
def isSkipped (toMs : ℤ) (raw : VodSourceSegment) : Bool :=
  raw.startedAt.any fun startMs => (endOf raw startMs).isNone && startMs < toMs

def reasonBetween (toleranceMs : ℚ) (previous current : Candidate) :
    Option VodDiscontinuityReason :=
  let deltaMs := current.startMs - previous.endMs
  if toleranceMs < deltaMs then some .gap
  else if deltaMs < -toleranceMs then some .overlap
  else if previous.codec.isSome ∧ current.codec.isSome ∧ previous.codec ≠ current.codec then
    some .codec
  else none

/-- `new Date(ms)`: a fraction is dropped, towards zero. -/
def dateOf (ms : ℚ) : ℤ := ms.num.tdiv ms.den

def segmentOf (toleranceMs : ℚ) (previous : Option Candidate) (cursorMs : ℚ)
    (current : Candidate) : VodPlaylistSegment where
  recordingId := current.id
  startedAt := current.startMs
  endedAt := dateOf current.endMs
  durationSeconds := roundSeconds current.lengthMs
  offsetSeconds := roundSeconds cursorMs
  discontinuityReason := previous.bind fun previous => reasonBetween toleranceMs previous current
  codec := current.codec

/-- The loop over the selected segments. -/
def segmentsFrom (toleranceMs : ℚ) :
    Option Candidate → ℚ → List Candidate → List VodPlaylistSegment
  | _, _, [] => []
  | previous, cursorMs, current :: rest =>
    segmentOf toleranceMs previous cursorMs current ::
      segmentsFrom toleranceMs (some current) (cursorMs + current.lengthMs) rest

def totalMs (selected : List Candidate) : ℚ := (selected.map Candidate.lengthMs).sum

/-- No later instant has a text: `toISOString` throws. -/
def lastDate : ℚ := 8640000000000000

section Plan

variable [Unicode] (localeCompare : Text → Text → Int) (input : PlanVodPlaylistInput)

def startsBefore (a b : Candidate) : Prop :=
  a.startMs < b.startMs ∨ a.startMs = b.startMs ∧ localeCompare a.id b.id ≤ 0

instance : DecidableRel (startsBefore localeCompare) :=
  fun _ _ => inferInstanceAs (Decidable (_ ∨ _))

def candidates (fromMs toMs : ℤ) : List Candidate :=
  (input.segments.filterMap (candidateOf fromMs toMs)).insertionSort (startsBefore localeCompare)

/-- What the playlist is made of; none where planning throws. -/
def selected : Option (List Candidate) :=
  match input.fromMs, input.toMs with
  | some fromMs, some toMs =>
    let chosen := (candidates localeCompare input fromMs toMs).take input.most
    if chosen.any fun c => decide (lastDate < c.endMs) then none else some chosen
  | _, _ => none

def startOffset (fromMs : ℤ) : List Candidate → ℚ
  | [] => 0
  | first :: _ => max 0 (roundSeconds (min (fromMs : ℚ) first.endMs - first.startMs))

def planOf (fromMs toMs : ℤ) (chosen : List Candidate) : VodPlaylistPlan :=
  let segments := segmentsFrom input.toleranceMs none 0 chosen
  { fromMs := fromMs
    toMs := toMs
    segments := segments
    targetDurationSeconds :=
      max 1 ⌈(segments.map VodPlaylistSegment.durationSeconds).foldl max 0⌉
    totalDurationSeconds := roundSeconds (totalMs chosen)
    startOffsetSeconds := startOffset fromMs chosen
    discontinuities := segments.countP VodPlaylistSegment.discontinuity
    skipped := input.segments.countP (isSkipped toMs)
    truncated := input.most < (candidates localeCompare input fromMs toMs).length
    coverage := (chosen.head?.map Candidate.startMs, chosen.getLast?.map fun c => dateOf c.endMs) }

def planVodPlaylist : Option VodPlaylistPlan :=
  match input.fromMs, input.toMs, selected localeCompare input with
  | some fromMs, some toMs, some chosen => some (planOf localeCompare input fromMs toMs chosen)
  | _, _, _ => none

end Plan

inductive Line
  | text (written : String)
  | targetDuration (seconds : ℤ)
  | startOffset (seconds : ℚ)
  | discontinuity
  | programDateTime (startedAt : ℤ)
  | extinf (seconds : ℚ)
  | url (written : Text)

def renderVodPlaylist (plan : VodPlaylistPlan) (buildSegmentUrl : VodPlaylistSegment → Text)
    (includePdt : Bool) : List Line :=
  [.text "#EXTM3U", .text "#EXT-X-VERSION:3", .text "#EXT-X-PLAYLIST-TYPE:VOD",
    .targetDuration plan.targetDurationSeconds, .text "#EXT-X-MEDIA-SEQUENCE:0",
    .startOffset plan.startOffsetSeconds] ++
  (plan.segments.flatMap fun segment =>
    (if segment.discontinuity then [.discontinuity] else []) ++
    (if includePdt then [.programDateTime segment.startedAt] else []) ++
    [.extinf segment.durationSeconds, .url (buildSegmentUrl segment)]) ++
  [.text "#EXT-X-ENDLIST"]

/-! What a playlist should say. -/

def lastCodec (before : List Candidate) : Option Text := (before.filterMap Candidate.codec).getLast?

def apartMs (previous current : Candidate) : ℚ := |current.startMs - previous.endMs|

/-- The timeline or the codec breaks in front of a segment. -/
def Breaks (toleranceMs : ℚ) (before : List Candidate) (current : Candidate) : Prop :=
  ∃ previous, before.getLast? = some previous ∧ (toleranceMs < apartMs previous current ∨
    ∃ known codec, lastCodec before = some known ∧ current.codec = some codec ∧ known ≠ codec)

/-- The segment behind so many others has the offset and the mark that belong there. -/
def Placed (toleranceMs : ℚ) (segments : List VodPlaylistSegment) (before : List Candidate)
    (current : Candidate) : Prop :=
  ∃ early segment late, segments = early ++ segment :: late ∧ early.length = before.length ∧
    segment.offsetSeconds = (early.map VodPlaylistSegment.durationSeconds).sum ∧
    (segment.discontinuity = true ↔ Breaks toleranceMs before current)

structure Faithful (toleranceMs : ℚ) (chosen : List Candidate) (plan : VodPlaylistPlan) : Prop where
  order : (plan.segments.map fun s => (s.recordingId, s.startedAt)) =
      (chosen.map fun c => (c.id, c.startMs)) ∧
    plan.segments.Pairwise fun a b => a.startedAt ≤ b.startedAt
  places : ∀ before current after, chosen = before ++ current :: after →
    Placed toleranceMs plan.segments before current
  target : ∀ buildSegmentUrl includePdt (target : ℤ) (seconds : ℚ),
    .targetDuration target ∈ renderVodPlaylist plan buildSegmentUrl includePdt →
      .extinf seconds ∈ renderVodPlaylist plan buildSegmentUrl includePdt → seconds ≤ target
  start : 0 ≤ plan.startOffsetSeconds ∧ plan.startOffsetSeconds ≤ plan.totalDurationSeconds

/-- What rounding each length takes away or adds. -/
def roundingMs (before : List Candidate) : ℚ :=
  (before.map fun c => c.lengthMs - (VodContinuous.round c.lengthMs : ℚ)).sum

structure Legible (toleranceMs : ℚ) (chosen : List Candidate) : Prop where
  rounding : ∀ before current after, chosen = before ++ current :: after →
    -(1 / 2) ≤ roundingMs before ∧ roundingMs before < 1 / 2
  codecs : ∀ before previous current after,
    chosen = before ++ previous :: current :: after → apartMs previous current ≤ toleranceMs →
      previous.codec = none → ∀ known codec, lastCodec before = some known →
        current.codec = some codec → known = codec

variable (toleranceMs : ℚ)

theorem segmentsFrom_append (previous : Option Candidate) (cursorMs : ℚ)
    (before after : List Candidate) : segmentsFrom toleranceMs previous cursorMs (before ++ after) =
      segmentsFrom toleranceMs previous cursorMs before ++
        segmentsFrom toleranceMs (before.getLast?.or previous) (cursorMs + totalMs before) after := by
  induction before generalizing previous cursorMs with
  | nil => simp [segmentsFrom, totalMs]
  | cons first rest ih =>
    have last : (first :: rest).getLast?.or previous = rest.getLast?.or (some first) := by
      rw [List.getLast?_cons]
      cases rest.getLast? <;> rfl
    have total : totalMs (first :: rest) = first.lengthMs + totalMs rest := rfl
    rw [cons_append, segmentsFrom, segmentsFrom, ih, last, total, ← add_assoc]
    rfl

theorem segmentsFrom_map {β : Type} (read : VodPlaylistSegment → β) (source : Candidate → β)
    (same : ∀ previous cursorMs current, read (segmentOf toleranceMs previous cursorMs current) =
      source current) (previous : Option Candidate) (cursorMs : ℚ) (chosen : List Candidate) :
    (segmentsFrom toleranceMs previous cursorMs chosen).map read = chosen.map source := by
  induction chosen generalizing previous cursorMs with
  | nil => rfl
  | cons first rest ih => rw [segmentsFrom, map_cons, map_cons, same, ih]

variable (before : List Candidate)

/-- The durations before a segment add up to a whole number of milliseconds. -/
theorem sum_durations : ∃ n : ℤ,
    (before.map fun c => roundSeconds c.lengthMs).sum = n / 1000 ∧
      totalMs before = n + roundingMs before := by
  induction before with
  | nil => exact ⟨0, by simp, by simp [totalMs, roundingMs]⟩
  | cons first rest ih =>
    obtain ⟨n, durations, total⟩ := ih
    refine ⟨VodContinuous.round first.lengthMs + n, ?_, ?_⟩
    · rw [map_cons, sum_cons, durations, roundSeconds]
      push_cast
      ring
    · unfold totalMs roundingMs at total ⊢
      simp only [map_cons, sum_cons, total]
      push_cast
      ring

theorem offset_iff :
    roundSeconds (totalMs before) = (before.map fun c => roundSeconds c.lengthMs).sum ↔
      -(1 / 2) ≤ roundingMs before ∧ roundingMs before < 1 / 2 := by
  obtain ⟨n, durations, total⟩ := sum_durations before
  rw [durations, total, roundSeconds, div_left_inj' (by norm_num), Int.cast_inj, VodContinuous.round,
    Int.floor_eq_iff]
  constructor
  all_goals
    rintro ⟨low, high⟩
    constructor <;> linarith

theorem lastCodec_concat (previous : Candidate) :
    lastCodec (before ++ [previous]) = previous.codec.or (lastCodec before) := by
  unfold lastCodec
  cases known : previous.codec with
  | none | some codec => simp [known]

theorem reasonBetween_iff (before : List Candidate) (previous current : Candidate) :
    ((reasonBetween toleranceMs previous current).isSome = true ↔
        Breaks toleranceMs (before ++ [previous]) current) ↔
      (apartMs previous current ≤ toleranceMs → previous.codec = none →
        ∀ known codec, lastCodec before = some known → current.codec = some codec →
          known = codec) := by
  have breaks : Breaks toleranceMs (before ++ [previous]) current ↔
      toleranceMs < apartMs previous current ∨ ∃ known codec,
        previous.codec.or (lastCodec before) = some known ∧ current.codec = some codec ∧
          known ≠ codec := by
    simp [Breaks, lastCodec_concat]
  rw [breaks]
  by_cases near : apartMs previous current ≤ toleranceMs
  · obtain ⟨low, high⟩ := abs_le.mp near
    have noGap : ¬ toleranceMs < current.startMs - previous.endMs := by linarith
    have noOverlap : ¬ current.startMs - previous.endMs < -toleranceMs := by linarith
    simp only [reasonBetween, noGap, noOverlap, if_false, not_lt.mpr near, false_or, near,
      true_imp_iff]
    cases previous.codec with
    | none =>
      simp only [Option.isSome_none, Bool.false_eq_true, false_and, if_false, Option.none_or,
        false_iff, not_exists, not_and, not_not, forall_const]
    | some known =>
      cases current.codec with
      | none | some codec => simp
  · have found : (reasonBetween toleranceMs previous current).isSome = true := by
      unfold reasonBetween
      rcases lt_abs.mp (not_le.mp near) with gap | overlap
      · simp [gap]
      · have behind : (current.startMs : ℚ) - previous.endMs < -toleranceMs := by linarith
        simp only [behind, if_true]
        split <;> rfl
    simp [found, not_le.mp near, near]

theorem foldl_max_ge (values : List ℚ) (start : ℚ) :
    start ≤ values.foldl max start ∧ ∀ value ∈ values, value ≤ values.foldl max start := by
  induction values generalizing start with
  | nil => exact ⟨le_refl _, nofun⟩
  | cons first rest ih =>
    obtain ⟨above, others⟩ := ih (max start first)
    refine ⟨(le_max_left _ _).trans above, ?_⟩
    intro value listed
    rcases mem_cons.mp listed with rfl | later
    · exact (le_max_right _ _).trans above
    · exact others value later

theorem roundSeconds_mono {a b : ℚ} (below : a ≤ b) : roundSeconds a ≤ roundSeconds b := by
  have rounded : ((VodContinuous.round a : ℤ) : ℚ) ≤ (VodContinuous.round b : ℤ) := by
    exact_mod_cast VodContinuous.round_mono below
  unfold roundSeconds
  linarith

section Laws

variable (localeCompare : Text → Text → Int) (input : PlanVodPlaylistInput)

theorem endOf_lasts {raw : VodSourceSegment} {startMs : ℤ} {endMs : ℚ}
    (known : endOf raw startMs = some endMs) : startMs ≤ endMs := by
  unfold endOf at known
  split at known
  · rename_i ended filtered
    rw [Option.filter_eq_some_iff, decide_eq_true_eq] at filtered
    rw [← Option.some.inj known]
    exact_mod_cast filtered.2.le
  · obtain ⟨d, filtered, rfl⟩ := Option.map_eq_some_iff.mp known
    rw [Option.filter_eq_some_iff, decide_eq_true_eq] at filtered
    linarith [filtered.2]

theorem selected_lasts [Unicode] {chosen : List Candidate}
    (taken : selected localeCompare input = some chosen) :
    (∀ c ∈ chosen, 0 ≤ c.lengthMs) ∧ chosen.Pairwise fun a b => a.startMs ≤ b.startMs := by
  unfold selected at taken
  split at taken
  case h_2 => cases taken
  rename_i fromMs toMs _ _
  dsimp only at taken
  split at taken
  · cases taken
  · rw [← Option.some.inj taken]
    constructor
    · intro c listed
      have candidate := mem_of_mem_take listed
      rw [candidates, mem_insertionSort] at candidate
      obtain ⟨raw, -, read⟩ := mem_filterMap.mp candidate
      obtain ⟨startMs, -, rest⟩ := Option.bind_eq_some_iff.mp read
      obtain ⟨endMs, known, rest⟩ := Option.bind_eq_some_iff.mp rest
      split at rest
      · cases rest
      · rw [← Option.some.inj rest]
        exact sub_nonneg.mpr (endOf_lasts known)
    · apply List.Pairwise.take
      apply KeyedList.insertionSort_byKey (startsBefore localeCompare) Candidate.startMs
      · intro a b before
        rcases before with earlier | ⟨same, -⟩
        · exact earlier.le
        · exact same.le
      · intro a b after
        exact not_lt.mp fun earlier => after (Or.inl earlier)

theorem startOffset_inside (fromMs : ℤ) (chosen : List Candidate)
    (lasts : ∀ c ∈ chosen, 0 ≤ c.lengthMs) : 0 ≤ startOffset fromMs chosen ∧
      startOffset fromMs chosen ≤ roundSeconds (totalMs chosen) := by
  have zero : roundSeconds 0 = 0 := by
    have whole := VodContinuous.round_int 0
    rw [Int.cast_zero] at whole
    rw [roundSeconds, whole, Int.cast_zero, zero_div]
  cases chosen with
  | nil => exact ⟨le_refl 0, zero.ge⟩
  | cons first rest =>
    have own := lasts first mem_cons_self
    have others : 0 ≤ totalMs rest := sum_nonneg fun x listed => by
      obtain ⟨c, inside, rfl⟩ := mem_map.mp listed
      exact lasts c (mem_cons_of_mem _ inside)
    have total : totalMs (first :: rest) = first.lengthMs + totalMs rest := by
      rfl
    have part : min (fromMs : ℚ) first.endMs - first.startMs ≤ totalMs (first :: rest) := by
      have least := min_le_right (fromMs : ℚ) first.endMs
      rw [total, Candidate.lengthMs]
      linarith
    have above : 0 ≤ roundSeconds (totalMs (first :: rest)) := by
      rw [← zero]
      exact roundSeconds_mono (by linarith)
    exact ⟨le_max_left _ _, max_le above (roundSeconds_mono part)⟩

variable {buildSegmentUrl : VodPlaylistSegment → Text}

theorem rendered_target {plan : VodPlaylistPlan} {includePdt : Bool} {target : ℤ}
    (first : .targetDuration target ∈ renderVodPlaylist plan buildSegmentUrl includePdt) :
    target = plan.targetDurationSeconds := by
  simpa [renderVodPlaylist] using first

theorem rendered_extinf {plan : VodPlaylistPlan} {includePdt : Bool} {seconds : ℚ}
    (second : .extinf seconds ∈ renderVodPlaylist plan buildSegmentUrl includePdt) :
    ∃ s ∈ plan.segments, seconds = s.durationSeconds := by
  simpa [renderVodPlaylist] using second

theorem duration_le_target [Unicode] (fromMs toMs : ℤ) (chosen : List Candidate) :
    ∀ s ∈ (planOf localeCompare input fromMs toMs chosen).segments, s.durationSeconds ≤
      (planOf localeCompare input fromMs toMs chosen).targetDurationSeconds := by
  intro s inside
  have most := (foldl_max_ge ((planOf localeCompare input fromMs toMs chosen).segments.map
    VodPlaylistSegment.durationSeconds) 0).2 _ (mem_map_of_mem inside)
  refine most.trans ((Int.le_ceil _).trans ?_)
  exact_mod_cast le_max_right _ _

theorem segments_split (before : List Candidate) (current : Candidate) (after : List Candidate) :
    ∃ early late, segmentsFrom toleranceMs none 0 (before ++ current :: after) =
        early ++ segmentOf toleranceMs before.getLast? (totalMs before) current :: late ∧
      early.length = before.length ∧
      early.map VodPlaylistSegment.durationSeconds =
        before.map fun c => roundSeconds c.lengthMs := by
  have mapped := segmentsFrom_map toleranceMs VodPlaylistSegment.durationSeconds
    (fun c => roundSeconds c.lengthMs) (fun _ _ _ => rfl) none 0 before
  have count := congrArg List.length mapped
  rw [length_map, length_map] at count
  refine ⟨segmentsFrom toleranceMs none 0 before,
    segmentsFrom toleranceMs (some current) (totalMs before + current.lengthMs) after, ?_, count,
    mapped⟩
  rw [segmentsFrom_append, segmentsFrom, Option.or_none, zero_add]

theorem place_iff (current : Candidate) (after : List Candidate) (toleranceMs : ℚ) :
    Placed toleranceMs (segmentsFrom toleranceMs none 0 (before ++ current :: after)) before
        current ↔
      (-(1 / 2) ≤ roundingMs before ∧ roundingMs before < 1 / 2) ∧
        ∀ earlier previous, before = earlier ++ [previous] →
          apartMs previous current ≤ toleranceMs → previous.codec = none →
            ∀ known codec, lastCodec earlier = some known → current.codec = some codec →
              known = codec := by
  obtain ⟨early, late, split, count, durations⟩ := segments_split toleranceMs before current after
  have here : Placed toleranceMs (segmentsFrom toleranceMs none 0 (before ++ current :: after))
        before current ↔
      roundSeconds (totalMs before) = (before.map fun c => roundSeconds c.lengthMs).sum ∧
        ((before.getLast?.bind fun previous =>
          reasonBetween toleranceMs previous current).isSome = true ↔
            Breaks toleranceMs before current) := by
    constructor
    · rintro ⟨early', segment, late', split', count', offset, reason⟩
      obtain ⟨rfl, tail⟩ := append_inj (split.symm.trans split') (count.trans count'.symm)
      obtain ⟨rfl, -⟩ := List.cons.inj tail
      rw [durations] at offset
      exact ⟨offset, reason⟩
    · rintro ⟨offset, reason⟩
      exact ⟨early, _, late, split, count, by rw [durations]; exact offset, reason⟩
  rw [here, offset_iff]
  refine and_congr_right fun _ => ?_
  rcases eq_nil_or_concat before with rfl | ⟨earlier, previous, rfl⟩
  · simp [Breaks]
  · rw [concat_eq_append, List.getLast?_concat, Option.bind_some, reasonBetween_iff]
    constructor
    · intro legible earlier' previous' same
      obtain ⟨rfl, last⟩ := append_inj' same rfl
      obtain ⟨rfl, -⟩ := List.cons.inj last
      exact legible
    · intro legible
      exact legible earlier previous rfl

end Laws

/-- From H.264 to HEVC, with a minute of unknown codec in between. -/
def troca : PlanVodPlaylistInput where
  segments := [⟨['a'], some 0, some 60000, none, some "h264".toList⟩,
    ⟨['b'], some 60000, some 120000, none, none⟩,
    ⟨['c'], some 120000, some 180000, none, some "hevc".toList⟩]
  fromMs := some 0
  toMs := some 180000
  gapToleranceSeconds := none
  maxSegments := none

local instance : Unicode := JsString.ascii

end DracVms.VodPlan
