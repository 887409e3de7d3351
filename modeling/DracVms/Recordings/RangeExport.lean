import DracVms.Library.JsString

namespace DracVms.RangeExport

open Json (Text)
open JsString (trim Unicode)

/-- A segment of the list. The dates are those that `toMs` could read, in milliseconds, and the
duration is there when it is a finite number. -/
structure RangeSourceSegment where
  id : Text
  filePath : Text
  startedAt : Option Int
  endedAt : Option Int
  durationSeconds : Option Rat
  videoCodec : Text
  audioCodec : Text

inductive RangeExportStrategy where
  | copy
  | transcode
  deriving DecidableEq

structure RangeExportPart where
  recordingId : Text
  filePath : Text
  inpointSeconds : Rat
  outpointSeconds : Rat
  durationSeconds : Rat
  offsetSeconds : Rat
  segmentStartedAt : Int
  fileDurationSeconds : Rat

structure RangeExportGap where
  source : Rat
  target : Rat
  seconds : Rat

structure RangeExportPlan where
  requestedFrom : Int
  requestedTo : Int
  parts : List RangeExportPart
  strategy : RangeExportStrategy
  strategyReasons : List Text
  videoCodec : Option Text
  tagHvc1 : Bool
  totalDurationSeconds : Rat
  coveredFrom : Option Rat
  coveredTo : Option Rat
  requestedSeconds : Rat
  coveredSeconds : Rat
  gaps : List RangeExportGap
  continuous : Bool
  leadInSeconds : Rat
  leadOutSeconds : Rat
  truncated : Bool
  skipped : Nat

structure PlanRangeExportInput where
  segments : List RangeSourceSegment
  source : Option Int
  target : Option Int
  gapToleranceSeconds : Option Rat
  maxSegments : Option Rat
  copySafetySeconds : Option Rat
  forceTranscode : Bool

def defaultGapToleranceSeconds : Rat := 1

def defaultMaxSegments : Rat := 240

def defaultCopySafetySeconds : Rat := 2

def copySafeVideo : List Text := ["h264".toList, "hevc".toList, "h265".toList]

def copySafeAudio : List Text := ["aac".toList, "mp3".toList]

def hevcCodecs : List Text := ["hevc".toList, "h265".toList]

/-- `Math.round` -/
def round (x : Rat) : Int := (x + 1 / 2).floor

def roundSeconds (ms : Rat) : Rat := round ms / 1000

def normalizeCodec [Unicode] (codec : Text) : Text := Unicode.toLowerCase (trim codec)

structure Candidate where
  id : Text
  filePath : Text
  startMs : Int
  endMs : Rat
  videoCodec : Text
  audioCodec : Text

def joinPlus (texts : List Text) : Text := ['+'].intercalate texts

def unknownCodec : Text := "codec_desconhecido:".toList

def mixedVideo : Text := "codec_video_misto:".toList

def uncopiableVideo : Text := "codec_video_nao_copiavel:".toList

def mixedAudio : Text := "audio_misto:".toList

def withoutAudio : Text := "sem_audio".toList

def uncopiableAudio : Text := "codec_audio_nao_copiavel:".toList

def compatibleProfile : Text := "perfil_compativel_solicitado".toList

/-- Any doubt about the codecs ends in a transcode. -/
def strategyReasons (candidates : List Candidate) (forceTranscode : Bool) : List Text :=
  let unknown := (candidates.filter fun candidate => candidate.videoCodec = []).map fun candidate =>
    unknownCodec ++ candidate.id
  let videos := ((candidates.map Candidate.videoCodec).filter (· ≠ [])).eraseDups
  let videosMixed := if 1 < videos.length then [mixedVideo ++ joinPlus videos] else []
  let videosRefused := (videos.filter (· ∉ copySafeVideo)).map (uncopiableVideo ++ ·)
  let audios := (candidates.map Candidate.audioCodec).eraseDups
  let audiosMixed :=
    if 1 < audios.length then
      [mixedAudio ++ joinPlus (audios.map fun audio => if audio = [] then withoutAudio else audio)]
    else []
  let audiosRefused := (audios.filter fun audio => audio ≠ [] ∧ audio ∉ copySafeAudio).map
    (uncopiableAudio ++ ·)
  let forced := if forceTranscode then [compatibleProfile] else []
  (unknown ++ videosMixed ++ videosRefused ++ audiosMixed ++ audiosRefused ++ forced).eraseDups

def decideStrategy (candidates : List Candidate) (forceTranscode : Bool) : RangeExportStrategy :=
  if strategyReasons candidates forceTranscode = [] then .copy else .transcode

/-- The end of a segment that has started, if it is usable at all. -/
def RangeSourceSegment.endMs (raw : RangeSourceSegment) (startMs : Int) : Option Rat :=
  let byDuration : Option Rat :=
    match raw.durationSeconds with
    | none => none
    | some seconds => if 0 < seconds then some (startMs + seconds * 1000) else none
  match raw.endedAt with
  | none => byDuration
  | some ended => if startMs < ended then some ended else byDuration

/-- One segment of the first loop: a candidate, or one more that was skipped. -/
def collect [Unicode] (fromMs toMs : Int) (so : List Candidate × Nat) (raw : RangeSourceSegment) :
    List Candidate × Nat :=
  match raw.startedAt with
  | none => so
  | some startMs =>
    match raw.endMs startMs with
    | none => if startMs < toMs then (so.1, so.2 + 1) else so
    | some endMs =>
      if endMs ≤ fromMs ∨ toMs ≤ startMs then so
      else
        (so.1 ++ [⟨raw.id, raw.filePath, startMs, endMs, normalizeCodec raw.videoCodec,
          normalizeCodec raw.audioCodec⟩], so.2)

/-- Where one candidate is cut: in, out and how much of that the window did not ask for. -/
structure Cut where
  inMs : Rat
  outMs : Rat
  leadIn : Option Rat
  leadOut : Option Rat

def cut (fromMs toMs : Int) (margemMs : Rat) (current : Candidate) : Cut :=
  let fileDurationMs := current.endMs - current.startMs
  let rawInMs : Rat := max 0 (fromMs - current.startMs)
  let rawOutMs : Rat := min fileDurationMs (toMs - current.startMs)
  let inMs := if 0 < rawInMs then max 0 (rawInMs - margemMs) else 0
  let outMs := if rawOutMs < fileDurationMs then min fileDurationMs (rawOutMs + margemMs)
    else fileDurationMs
  { inMs := inMs
    outMs := outMs
    leadIn := if 0 < rawInMs then some (rawInMs - inMs) else none
    leadOut := if rawOutMs < fileDurationMs then some (outMs - rawOutMs) else none }

structure Joined where
  parts : List RangeExportPart
  cursorMs : Rat
  leadInMs : Rat
  leadOutMs : Rat

/-- One candidate of the second loop. -/
def joinPart (fromMs toMs : Int) (margemMs : Rat) (so : Joined) (current : Candidate) : Joined :=
  let piece := cut fromMs toMs margemMs current
  let so := { so with
    leadInMs := piece.leadIn.getD so.leadInMs
    leadOutMs := piece.leadOut.getD so.leadOutMs }
  let durationMs := piece.outMs - piece.inMs
  if durationMs ≤ 0 then so
  else { so with
    parts := so.parts ++ [{
      recordingId := current.id
      filePath := current.filePath
      inpointSeconds := roundSeconds piece.inMs
      outpointSeconds := roundSeconds piece.outMs
      durationSeconds := roundSeconds durationMs
      offsetSeconds := roundSeconds so.cursorMs
      segmentStartedAt := current.startMs
      fileDurationSeconds := roundSeconds (current.endMs - current.startMs) }]
    cursorMs := so.cursorMs + durationMs }

def RangeExportPart.fromMs (part : RangeExportPart) : Rat :=
  part.segmentStartedAt + part.inpointSeconds * 1000

def RangeExportPart.toMs (part : RangeExportPart) : Rat :=
  part.segmentStartedAt + part.outpointSeconds * 1000

/-- The hole between two instants, when it is longer than the tolerance. -/
def gapBetween (toleranceMs source target : Rat) : List RangeExportGap :=
  if toleranceMs < target - source then [⟨source, target, roundSeconds (target - source)⟩] else []

/-- One part of the third loop. -/
def findGap (toleranceMs : Rat) (so : List RangeExportGap × Rat) (part : RangeExportPart) :
    List RangeExportGap × Rat :=
  (so.1 ++ gapBetween toleranceMs so.2 part.fromMs, max so.2 part.toMs)

inductive PlanError where
  | invalid
  | reversed
  deriving DecidableEq

def PlanRangeExportInput.toleranceMs (input : PlanRangeExportInput) : Rat :=
  max 0 (input.gapToleranceSeconds.getD defaultGapToleranceSeconds * 1000)

/-- What a copy keeps around a cut, where the keyframe may be late. A transcode cuts exactly. -/
def PlanRangeExportInput.marginMs (input : PlanRangeExportInput) (strategy : RangeExportStrategy) :
    Rat :=
  if strategy = .copy then max 0 (input.copySafetySeconds.getD defaultCopySafetySeconds) * 1000
  else 0

/-- The plan of the candidates that were selected, in their order. -/
def planSelected (input : PlanRangeExportInput) (fromMs toMs : Int) (truncated : Bool)
    (skipped : Nat) (selected : List Candidate) : RangeExportPlan :=
  let strategy := decideStrategy selected input.forceTranscode
  let videoCodec := (selected.head?.map Candidate.videoCodec).filter (· ≠ [])
  let margemMs := input.marginMs strategy
  let joined := selected.foldl (joinPart fromMs toMs margemMs) ⟨[], 0, 0, 0⟩
  let (found, cursorClockMs) :=
    joined.parts.foldl (findGap input.toleranceMs) ([], (fromMs : Rat))
  let gaps := found ++ gapBetween input.toleranceMs cursorClockMs toMs
  let requestedSeconds := roundSeconds (toMs - fromMs)
  let gapSeconds := (gaps.map RangeExportGap.seconds).sum
  { requestedFrom := fromMs
    requestedTo := toMs
    parts := joined.parts
    strategy := strategy
    strategyReasons := strategyReasons selected input.forceTranscode
    videoCodec := videoCodec
    tagHvc1 := strategy = .copy ∧ videoCodec.any (· ∈ hevcCodecs)
    totalDurationSeconds := roundSeconds joined.cursorMs
    coveredFrom := joined.parts.head?.map RangeExportPart.fromMs
    coveredTo := joined.parts.getLast?.map RangeExportPart.toMs
    requestedSeconds := requestedSeconds
    coveredSeconds := max 0 (roundSeconds ((requestedSeconds - gapSeconds) * 1000))
    gaps := gaps
    continuous := joined.parts ≠ [] ∧ gaps = []
    leadInSeconds := roundSeconds joined.leadInMs
    leadOutSeconds := roundSeconds joined.leadOutMs
    truncated := truncated
    skipped := skipped }

section Plan

variable (localeCompare : Text → Text → Int)

/-- By start, then by id as the locale orders them. -/
def candidateBefore (a b : Candidate) : Prop :=
  a.startMs < b.startMs ∨ a.startMs = b.startMs ∧ localeCompare a.id b.id ≤ 0

instance (a b : Candidate) : Decidable (candidateBefore localeCompare a b) :=
  inferInstanceAs (Decidable (_ ∨ _))

def planRangeExport [Unicode] (input : PlanRangeExportInput) : Except PlanError RangeExportPlan :=
  match input.source, input.target with
  | some fromMs, some toMs =>
    if toMs ≤ fromMs then .error .reversed
    else
      let maxSegments := max 1 (input.maxSegments.getD defaultMaxSegments).floor
      let (candidates, skipped) := input.segments.foldl (collect fromMs toMs) ([], 0)
      let sorted := candidates.insertionSort (candidateBefore localeCompare)
      let truncated := decide (maxSegments < sorted.length)
      let selected := if truncated then sorted.take maxSegments.toNat else sorted
      .ok (planSelected input fromMs toMs truncated skipped selected)
  | _, _ => .error .invalid

end Plan

end DracVms.RangeExport
