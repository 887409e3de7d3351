import DracVms.Library.Json

namespace DracVms.SegmentRemux

open Json (Text)

/-- What a `.mp4` holds: nothing, the beginning of a remux, or the whole remuxed video. -/
inductive Video where
  | empty
  | torn
  | complete
  deriving DecidableEq

inductive Kind where
  | ts
  | mp4
  deriving DecidableEq

/-- The attempts that `segmentRemuxFailures` counts for a file, and the marker next to it. -/
structure Quarantine where
  failures : Nat
  marker : Bool
  deriving DecidableEq

/-- All that is known under one name: the size of the `.ts`, the `.mp4`, and its rows. -/
structure Segment where
  stem : Text
  ts : Option Nat
  mp4 : Option Video
  rows : Nat
  tsQuarantine : Quarantine
  mp4Quarantine : Quarantine
  deriving DecidableEq

def isDigit (c : Char) : Bool := '0' ≤ c && c ≤ '9'

/-- `/^(\d{4})-(\d{2})-(\d{2})_(\d{2})-(\d{2})-(\d{2})\./`, a zero standing for a digit. -/
def segmentShape : Text := "0000-00-00_00-00-00.".toList

def hasShape : Text → Text → Bool
  | [], _ => true
  | _ :: _, [] => false
  | p :: shape, c :: text => (if p = '0' then isDigit c else p = c) && hasShape shape text

def basename (path : Text) : Text := (path.reverse.takeWhile fun c => c ≠ '/').reverse

def Segment.mp4Name (seg : Segment) : Text := basename (seg.stem ++ ".mp4".toList)

/-- The name says when the segment started. -/
def Segment.named (seg : Segment) : Bool := hasShape segmentShape seg.mp4Name

/-- `RECORDING_SEGMENT_REMUX_MAX_ATTEMPTS`, none where it is no finite number. -/
def getSegmentRemuxMaxAttempts (configured : Option Rat) : Nat :=
  match configured with
  | none => 3
  | some n => if 1 ≤ n then n.floor.toNat else 3

def registerSegmentRemuxFailure (maxAttempts : Nat) (marks : Bool) (quarantine : Quarantine) :
    Quarantine × Bool :=
  let attempts := quarantine.failures + 1
  if attempts < maxAttempts then ({ quarantine with failures := attempts }, false)
  else ({ failures := 0, marker := quarantine.marker || marks }, true)

/-- One change of the disk, of the database or of the counters. -/
inductive Effect where
  | writeMp4 (video : Video)
  | removeMp4
  | saveRow
  | removeTs
  | forget (kind : Kind)
  | fail (kind : Kind) (maxAttempts : Nat) (marks : Bool)

def Segment.quarantine (seg : Segment) : Kind → Quarantine
  | .ts => seg.tsQuarantine
  | .mp4 => seg.mp4Quarantine

def Segment.setQuarantine (seg : Segment) (kind : Kind) (quarantine : Quarantine) : Segment :=
  match kind with
  | .ts => { seg with tsQuarantine := quarantine }
  | .mp4 => { seg with mp4Quarantine := quarantine }

/-- A row is created once for a path, and updated from then on. -/
def Effect.apply (seg : Segment) : Effect → Segment
  | .writeMp4 video => { seg with mp4 := some video }
  | .removeMp4 => { seg with mp4 := none }
  | .saveRow => { seg with rows := if seg.rows = 0 then 1 else seg.rows }
  | .removeTs => { seg with ts := none }
  | .forget kind => seg.setQuarantine kind { seg.quarantine kind with failures := 0 }
  | .fail kind maxAttempts marks =>
    seg.setQuarantine kind (registerSegmentRemuxFailure maxAttempts marks (seg.quarantine kind)).1

def applyAll (seg : Segment) (effects : List Effect) : Segment := effects.foldl Effect.apply seg

inductive Exit where
  | failed
  | blank
  | done
  deriving DecidableEq

/-- A run of `ffmpeg`: what the output held on the way, how it ended, and whether the output of a
failed run could be removed. -/
structure FfmpegRun where
  progress : List Video
  exit : Exit
  cleans : Bool

/-- How the outside behaves during one attempt: the three runs of `ffmpeg`, whether `ffprobe` finds
a duration and a video in a torn or a complete file, the database, and the files to be removed or
written. -/
structure Oracle where
  first : FfmpegRun
  second : FfmpegRun
  third : FfmpegRun
  readsTorn : Bool
  readsComplete : Bool
  saves : Bool
  unlinks : Bool
  marks : Bool

def Oracle.reads (o : Oracle) : Video → Bool
  | .empty => false
  | .torn => o.readsTorn
  | .complete => o.readsComplete

def Oracle.removal (o : Oracle) : List Effect := if o.unlinks then [.removeTs] else []

def FfmpegRun.ending (run : FfmpegRun) : List Effect :=
  match run.exit with
  | .done => [.writeMp4 .complete]
  | .blank => [.writeMp4 .empty]
  | .failed => if run.cleans then [.removeMp4] else []

def FfmpegRun.effects (run : FfmpegRun) : List Effect :=
  run.progress.map Effect.writeMp4 ++ run.ending

/-- `!existsSync(mp4Path) || statSync(mp4Path).size === 0` -/
def lacksVideo (seg : Segment) : Bool := seg.mp4 = none || seg.mp4 = some .empty

/-- The two runs that keep the audio, as it is or repaired. -/
def audioRuns (o : Oracle) (seg : Segment) : List Effect :=
  if lacksVideo (applyAll seg o.first.effects) then o.first.effects ++ o.second.effects
  else o.first.effects

/-- The remux, without audio where nothing else works. -/
def remuxTs (o : Oracle) (seg : Segment) : List Effect × Bool :=
  if lacksVideo seg then
    if lacksVideo (applyAll seg (audioRuns o seg)) then
      (audioRuns o seg ++ o.third.effects, o.third.exit ≠ .failed)
    else (audioRuns o seg, true)
  else ([], true)

/-- A name of another shape is passed over in silence. -/
def registerSegment (o : Oracle) (seg : Segment) : List Effect × Bool :=
  if !seg.named then ([], true)
  else
    match seg.mp4 with
    | none => ([], false)
    | some video => if o.reads video && o.saves then ([.saveRow], true) else ([], false)

inductive Result where
  | discarded
  | done
  | failed
  deriving DecidableEq

def remuxAndRegisterTsSegment (o : Oracle) (seg : Segment) : List Effect × Result :=
  if seg.ts = some 0 then (o.removal, .discarded)
  else
    let (writes, remuxed) := remuxTs o seg
    if !remuxed then (writes, .failed)
    else
      let (rows, registered) := registerSegment o (applyAll seg writes)
      if !registered then (writes ++ rows, .failed) else (writes ++ rows ++ o.removal, .done)

/-- An attempt with what is counted after it. -/
def attemptTs (maxAttempts : Nat) (o : Oracle) (seg : Segment) : List Effect × Result :=
  let (effects, result) := remuxAndRegisterTsSegment o seg
  (effects ++ [if result = .failed then .fail .ts maxAttempts o.marks else .forget .ts], result)

/-- What the scan does with a `.ts` that it does not know yet. -/
def scanSegment (maxAttempts : Nat) (o : Oracle) (seg : Segment) : List Effect :=
  if seg.tsQuarantine.marker then []
  else
    match seg.ts with
    | none => []
    | some size => if size = 0 then o.removal else (attemptTs maxAttempts o seg).1

/-- What the recovery does with a `.ts`, its twin registered or not as far as it knows. -/
def recoverTs (maxAttempts : Nat) (o : Oracle) (registered : Bool) (seg : Segment) :
    List Effect × Bool :=
  if seg.tsQuarantine.marker then ([], registered)
  else if registered then (o.removal, registered)
  else
    let (effects, result) := attemptTs maxAttempts o seg
    (effects, result = .done)

/-- What the recovery does with a `.mp4` that no row named when it started. -/
def recoverMp4 (maxAttempts : Nat) (o : Oracle) (registered : Bool) (seg : Segment) :
    List Effect × Bool :=
  if seg.mp4Quarantine.marker then ([], registered)
  else
    let (rows, recovered) := match seg.mp4 with
      | none => ([], false)
      | some video => if o.reads video then registerSegment o seg else ([], false)
    if recovered then (rows ++ [.forget .mp4], true)
    else (rows ++ [.fail .mp4 maxAttempts o.marks], registered)

def recoverFile (maxAttempts : Nat) (o : Oracle) (registered : Bool) (seg : Segment) :
    Kind → List Effect × Bool
  | .ts => recoverTs maxAttempts o registered seg
  | .mp4 => recoverMp4 maxAttempts o registered seg

/-- The files of the segment that the recovery lists, the `.mp4` only where no row names it. -/
def orphans (mp4First : Bool) (seg : Segment) : List Kind :=
  let mp4 := if seg.mp4.isSome && seg.rows = 0 then [Kind.mp4] else []
  let ts := if seg.ts.isSome then [Kind.ts] else []
  if mp4First then mp4 ++ ts else ts ++ mp4

def recoverFiles (maxAttempts : Nat) (oracle : Kind → Oracle) :
    Bool → Segment → List Kind → List Effect
  | _, _, [] => []
  | registered, seg, kind :: rest =>
    let visit := recoverFile maxAttempts (oracle kind) registered seg kind
    visit.1 ++ recoverFiles maxAttempts oracle visit.2 (applyAll seg visit.1) rest

/-- The recovery, as far as this segment goes. -/
def recoverOrphanedSegments (maxAttempts : Nat) (mp4First : Bool) (oracle : Kind → Oracle)
    (seg : Segment) : List Effect :=
  recoverFiles maxAttempts oracle (0 < seg.rows) seg (orphans mp4First seg)

/-- A new process: the counters are gone, the markers are not. -/
def Segment.restarted (seg : Segment) : Segment :=
  { seg with
    tsQuarantine := { seg.tsQuarantine with failures := 0 }
    mp4Quarantine := { seg.mp4Quarantine with failures := 0 } }

end DracVms.SegmentRemux
