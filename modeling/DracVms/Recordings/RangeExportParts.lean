import DracVms.Library.IntervalSweep
import DracVms.Recordings.RangeExport

namespace DracVms.RangeExport

open List IntervalSweep

theorem round_le (x : Rat) : (round x : Rat) ≤ x + 1 / 2 :=
  Rat.floor_le (x + 1 / 2)

theorem lt_round (x : Rat) : x < round x + 1 / 2 := by
  have above := Rat.lt_floor_add_one (x + 1 / 2)
  have named : ((x + 1 / 2).floor : Rat) = round x := rfl
  push_cast at above
  linarith

theorem round_mono (x y : Rat) (le : x ≤ y) : round x ≤ round y := by
  apply Rat.floor_monotone
  linarith

theorem round_shift (k : Int) (x : Rat) : round (k + x) = k + round x := by
  unfold round
  have commuted : (k : Rat) + x + 1 / 2 = x + 1 / 2 + k := by ring
  rw [commuted, Rat.floor_add_intCast, Int.add_comm]

theorem round_int (k : Int) : round (k : Rat) = k := by
  have nothing : round 0 = 0 := by decide +kernel
  have shifted := round_shift k 0
  rw [add_zero, nothing, add_zero] at shifted
  exact shifted

theorem round_sub (k : Int) (x : Rat) : ((k + round (x - k) : Int) : Rat) = round x := by
  rw [← round_shift, add_sub_cancel]

theorem seconds_mul (ms : Rat) : roundSeconds ms * 1000 = round ms := by
  unfold roundSeconds
  ring

/-- What is left of a segment inside the window. -/
structure InWindow (fromMs toMs : Int) (current : Candidate) : Prop where
  lasts : current.startMs < current.endMs
  begins : current.startMs < toMs
  ends : fromMs < current.endMs

section Cut

variable (fromMs toMs : Int) (margemMs : Rat)

def mediaFrom (current : Candidate) : Rat := max current.startMs (fromMs - margemMs)

def mediaTo (current : Candidate) : Rat := min current.endMs (toMs + margemMs)

section

variable (current : Candidate) (margin : 0 ≤ margemMs)

include margin

theorem cut_in : (cut fromMs toMs margemMs current).inMs =
      mediaFrom fromMs margemMs current - current.startMs := by
  simp only [cut, mediaFrom, max_def]
  grind

theorem cut_out : (cut fromMs toMs margemMs current).outMs =
      mediaTo toMs margemMs current - current.startMs := by
  simp only [cut, mediaTo, min_def]
  grind

theorem cut_leadIn : (cut fromMs toMs margemMs current).leadIn =
      if current.startMs < fromMs then some (fromMs - mediaFrom fromMs margemMs current)
      else none := by
  have started := cut_in fromMs toMs margemMs current margin
  simp only [cut] at started ⊢
  rw [started]
  by_cases straddles : current.startMs < fromMs
  · have ahead : (current.startMs : Rat) < fromMs := by exact_mod_cast straddles
    have raw : max 0 ((fromMs : Rat) - current.startMs) = fromMs - current.startMs :=
      max_eq_right (by linarith)
    have positive : (0 : Rat) < fromMs - current.startMs := by linarith
    simp only [raw, positive, straddles, if_true]
    congr 1
    ring
  · have behind : (fromMs : Rat) ≤ current.startMs := by exact_mod_cast not_lt.mp straddles
    have raw : max 0 ((fromMs : Rat) - current.startMs) = 0 := max_eq_left (by linarith)
    simp [raw, straddles]

theorem cut_leadOut : (cut fromMs toMs margemMs current).leadOut =
      if (toMs : Rat) < current.endMs then some (mediaTo toMs margemMs current - toMs)
      else none := by
  have stopped := cut_out fromMs toMs margemMs current margin
  simp only [cut] at stopped ⊢
  rw [stopped]
  by_cases straddles : (toMs : Rat) < current.endMs
  · have raw : min (current.endMs - current.startMs) ((toMs : Rat) - current.startMs) =
        toMs - current.startMs := min_eq_right (by linarith)
    have shorter : (toMs : Rat) - current.startMs < current.endMs - current.startMs := by linarith
    simp only [raw, shorter, straddles, if_true]
    congr 1
    ring
  · have raw : min (current.endMs - current.startMs) ((toMs : Rat) - current.startMs) =
        current.endMs - current.startMs := min_eq_left (by linarith [not_lt.mp straddles])
    simp [raw, straddles]

/-- A part always has a duration: the window and the segment meet. -/
theorem media_lasts (ordered : fromMs < toMs) (inside : InWindow fromMs toMs current) :
    mediaFrom fromMs margemMs current < mediaTo toMs margemMs current := by
  have window : (fromMs : Rat) < toMs := by exact_mod_cast ordered
  have begins : (current.startMs : Rat) < toMs := by exact_mod_cast inside.begins
  have lasts := inside.lasts
  have ends := inside.ends
  unfold mediaFrom mediaTo
  apply max_lt
  · exact lt_min lasts (by linarith)
  · exact lt_min (by linarith) (by linarith)

end

def partAt (cursorMs : Rat) (current : Candidate) : RangeExportPart where
  recordingId := current.id
  filePath := current.filePath
  inpointSeconds := roundSeconds (mediaFrom fromMs margemMs current - current.startMs)
  outpointSeconds := roundSeconds (mediaTo toMs margemMs current - current.startMs)
  durationSeconds :=
    roundSeconds (mediaTo toMs margemMs current - mediaFrom fromMs margemMs current)
  offsetSeconds := roundSeconds cursorMs
  segmentStartedAt := current.startMs
  fileDurationSeconds := roundSeconds (current.endMs - current.startMs)

theorem partAt_fromMs (cursorMs : Rat) (current : Candidate) :
    (partAt fromMs toMs margemMs cursorMs current).fromMs =
      round (mediaFrom fromMs margemMs current) := by
  rw [← round_sub current.startMs]
  simp only [RangeExportPart.fromMs, partAt, seconds_mul]
  push_cast
  rfl

theorem partAt_toMs (cursorMs : Rat) (current : Candidate) :
    (partAt fromMs toMs margemMs cursorMs current).toMs =
      round (mediaTo toMs margemMs current) := by
  rw [← round_sub current.startMs]
  simp only [RangeExportPart.toMs, partAt, seconds_mul]
  push_cast
  rfl

theorem joinPart_eq (so : Joined) (current : Candidate) (margin : 0 ≤ margemMs)
    (ordered : fromMs < toMs) (inside : InWindow fromMs toMs current) :
    joinPart fromMs toMs margemMs so current =
      { parts := so.parts ++ [partAt fromMs toMs margemMs so.cursorMs current]
        cursorMs :=
          so.cursorMs + (mediaTo toMs margemMs current - mediaFrom fromMs margemMs current)
        leadInMs :=
          if current.startMs < fromMs then fromMs - mediaFrom fromMs margemMs current
          else so.leadInMs
        leadOutMs :=
          if (toMs : Rat) < current.endMs then mediaTo toMs margemMs current - toMs
          else so.leadOutMs } := by
  have lasts := media_lasts fromMs toMs margemMs current margin ordered inside
  have duration : mediaTo toMs margemMs current - current.startMs -
      (mediaFrom fromMs margemMs current - current.startMs) =
        mediaTo toMs margemMs current - mediaFrom fromMs margemMs current := by ring
  have positive : ¬mediaTo toMs margemMs current - mediaFrom fromMs margemMs current ≤ 0 := by
    linarith
  simp only [joinPart, cut_in fromMs toMs margemMs current margin,
    cut_out fromMs toMs margemMs current margin, cut_leadIn fromMs toMs margemMs current margin,
    cut_leadOut fromMs toMs margemMs current margin, duration, positive, if_false, partAt]
  congr 1
  all_goals split <;> rfl

/-- The parts of the candidates, the first of them at the given offset. -/
def partsFrom : Rat → List Candidate → List RangeExportPart
  | _, [] => []
  | cursorMs, current :: rest =>
    partAt fromMs toMs margemMs cursorMs current ::
      partsFrom
        (cursorMs + (mediaTo toMs margemMs current - mediaFrom fromMs margemMs current)) rest

section

variable (so : Joined) (selected : List Candidate) (margin : 0 ≤ margemMs) (ordered : fromMs < toMs)
  (inside : ∀ current ∈ selected, InWindow fromMs toMs current)

include margin ordered inside

theorem joinPart_parts : (selected.foldl (joinPart fromMs toMs margemMs) so).parts =
      so.parts ++ partsFrom fromMs toMs margemMs so.cursorMs selected := by
  induction selected generalizing so with
  | nil => simp [partsFrom]
  | cons current rest ih =>
    obtain ⟨here, later⟩ := forall_mem_cons.mp inside
    rw [foldl_cons, joinPart_eq fromMs toMs margemMs so current margin ordered here,
      ih _ later, partsFrom, append_assoc, singleton_append]

theorem joinPart_leadIn : ((∀ current ∈ selected, fromMs ≤ current.startMs) ∧
        (selected.foldl (joinPart fromMs toMs margemMs) so).leadInMs = so.leadInMs) ∨
      ∃ current ∈ selected, current.startMs < fromMs ∧
        (selected.foldl (joinPart fromMs toMs margemMs) so).leadInMs =
          fromMs - mediaFrom fromMs margemMs current := by
  induction selected generalizing so with
  | nil => simp
  | cons current rest ih =>
    obtain ⟨here, later⟩ := forall_mem_cons.mp inside
    rw [foldl_cons, joinPart_eq fromMs toMs margemMs so current margin ordered here]
    rcases ih _ later with ⟨clear, kept⟩ | ⟨other, present, straddles, lead⟩
    · by_cases straddles : current.startMs < fromMs
      · right
        exact ⟨current, mem_cons_self, straddles, by rw [kept, if_pos straddles]⟩
      · left
        exact ⟨forall_mem_cons.mpr ⟨not_lt.mp straddles, clear⟩, by rw [kept, if_neg straddles]⟩
    · right
      exact ⟨other, mem_cons_of_mem _ present, straddles, lead⟩

theorem joinPart_leadOut (within : ∀ current ∈ selected, current.endMs ≤ toMs) :
    (selected.foldl (joinPart fromMs toMs margemMs) so).leadOutMs = so.leadOutMs := by
  induction selected generalizing so with
  | nil => rfl
  | cons current rest ih =>
    obtain ⟨here, later⟩ := forall_mem_cons.mp inside
    obtain ⟨short, within'⟩ := forall_mem_cons.mp within
    rw [foldl_cons, joinPart_eq fromMs toMs margemMs so current margin ordered here,
      ih _ later within', if_neg (not_lt.mpr short)]

end

theorem joinPart_leadOut_last (so : Joined) (selected : List Candidate) (last : Candidate)
    (margin : 0 ≤ margemMs) (ordered : fromMs < toMs) (inside : InWindow fromMs toMs last)
    (straddles : (toMs : Rat) < last.endMs) :
    ((selected ++ [last]).foldl (joinPart fromMs toMs margemMs) so).leadOutMs =
      mediaTo toMs margemMs last - toMs := by
  rw [foldl_append, foldl_cons, foldl_nil,
    joinPart_eq fromMs toMs margemMs _ last margin ordered inside, if_pos straddles]

def interval (part : RangeExportPart) : Rat × Rat := (part.fromMs, part.toMs)

def media (current : Candidate) : Rat × Rat :=
  (round (mediaFrom fromMs margemMs current), round (mediaTo toMs margemMs current))

theorem partsFrom_interval (cursorMs : Rat) (selected : List Candidate) :
    (partsFrom fromMs toMs margemMs cursorMs selected).map interval =
      selected.map (media fromMs toMs margemMs) := by
  induction selected generalizing cursorMs with
  | nil => rfl
  | cons current rest ih =>
    rw [partsFrom, map_cons, map_cons, ih, interval, partAt_fromMs, partAt_toMs, media]

/-- Two numbers that differ by no more than the slack. -/
def Within (slack x y : Rat) : Prop := x ≤ y + slack ∧ y ≤ x + slack

theorem partsFrom_offset (slack cursorMs : Rat) (selected : List Candidate)
    (near : ∀ current ∈ selected, Within slack (mediaTo toMs margemMs current - mediaFrom fromMs
      margemMs current) (round (mediaTo toMs margemMs current - mediaFrom fromMs margemMs current)))
    (before : List RangeExportPart) (part : RangeExportPart) (after : List RangeExportPart)
    (split : partsFrom fromMs toMs margemMs cursorMs selected = before ++ part :: after) :
    ∃ passed, part.offsetSeconds = roundSeconds (cursorMs + passed) ∧
      Within (before.length * slack) passed
        ((before.map RangeExportPart.durationSeconds).sum * 1000) ∧
      ∃ whole : Int, (before.map RangeExportPart.durationSeconds).sum * 1000 = whole := by
  induction before generalizing cursorMs selected with
  | nil =>
    refine ⟨0, ?_, by simp [Within], 0, by simp⟩
    cases selected with
    | nil => cases split
    | cons current rest =>
      obtain ⟨same, -⟩ := List.cons.inj split
      rw [← same, add_zero]
      rfl
  | cons first before ih =>
    cases selected with
    | nil => cases split
    | cons current rest =>
      obtain ⟨same, rest'⟩ := List.cons.inj split
      obtain ⟨here, later⟩ := forall_mem_cons.mp near
      obtain ⟨passed, offset, ⟨above, below⟩, whole, total⟩ := ih _ rest later rest'
      have duration : first.durationSeconds * 1000 =
          round (mediaTo toMs margemMs current - mediaFrom fromMs margemMs current) := by
        rw [← same]
        exact seconds_mul _
      obtain ⟨above, below⟩ := here
      refine ⟨mediaTo toMs margemMs current - mediaFrom fromMs margemMs current + passed,
        by rw [offset, add_assoc], ?_,
        round (mediaTo toMs margemMs current - mediaFrom fromMs margemMs current) + whole, ?_⟩
      · simp only [Within, map_cons, sum_cons, length_cons, add_mul, duration]
        push_cast
        constructor
        all_goals linarith
      · rw [map_cons, sum_cons, add_mul, duration, total]
        push_cast
        rfl

theorem mem_partsFrom (cursorMs : Rat) (selected : List Candidate) (part : RangeExportPart)
    (present : part ∈ partsFrom fromMs toMs margemMs cursorMs selected) :
    ∃ current ∈ selected, ∃ offsetMs, part = partAt fromMs toMs margemMs offsetMs current := by
  induction selected generalizing cursorMs with
  | nil => cases present
  | cons current rest ih =>
    rcases mem_cons.mp present with same | later
    · exact ⟨current, mem_cons_self, cursorMs, same⟩
    · obtain ⟨other, chosen, offsetMs, same⟩ := ih _ later
      exact ⟨other, mem_cons_of_mem _ chosen, offsetMs, same⟩

end Cut

end DracVms.RangeExport
