import DracVms.Recordings.SegmentRemux
import DracVms.Library.KeyedList

namespace DracVms.SegmentScan

open Json (Text)
open KeyedList (lookup updateAt)
open SegmentRemux

/-- A recording that runs: the files it knows, and those its scan in flight has still to see. -/
structure Session where
  knownFiles : List Text
  queue : List Text
  finalize : Bool

def Session.list (session : Session) (files : List Text) (finalize : Bool) : Session :=
  { session with queue := files, finalize }

/-- A recovery in flight: the files it has still to see, and the `.mp4` it takes for registered. -/
structure Recovery where
  candidates : List (Text × Kind)
  registeredPaths : List Text
  deriving DecidableEq

/-- What one process does with the files of one camera. Its last two fields are not in the code: how
often each `.ts` was attempted in vain, and which ones were given up without a marker. -/
structure Recorder where
  segments : List Segment
  writing : Option Text
  active : Option Session
  recovery : Option Recovery
  tries : Text → Nat
  unmarked : List Text

def Recorder.segment (s : Recorder) (stem : Text) : Option Segment :=
  lookup Segment.stem s.segments stem

def Recorder.apply (s : Recorder) (stem : Text) (effects : List Effect) : Recorder :=
  { s with segments := updateAt Segment.stem s.segments stem fun seg => applyAll seg effects }

/-- The process dies: what is on the disk stays. -/
def Recorder.restart (s : Recorder) : Recorder where
  segments := s.segments.map Segment.restarted
  writing := none
  active := none
  recovery := none
  tries := fun _ => 0
  unmarked := []

/-- A new process on what the disk and the database hold. -/
def Recorder.boot (disk : List Segment) : Recorder :=
  Recorder.restart ⟨disk, none, none, none, fun _ => 0, []⟩

/-- The books of an attempt, beside those that the code keeps. -/
def Recorder.tally (s : Recorder) (stem : Text) (result : Result) (unmarked : Bool) : Recorder :=
  match result with
  | .failed =>
    { s with
      tries := fun other => if other = stem then s.tries stem + 1 else s.tries other
      unmarked := if unmarked then stem :: s.unmarked else s.unmarked }
  | _ =>
    { s with
      tries := fun other => if other = stem then 0 else s.tries other
      unmarked := s.unmarked.filter fun other => other ≠ stem }

/-- The attempts are spent with this failure, and the marker is not there. -/
def givenUpUnmarked (maxAttempts : Nat) (o : Oracle) (seg : Segment) : Bool :=
  let (quarantine, givenUp) := registerSegmentRemuxFailure maxAttempts o.marks seg.tsQuarantine
  givenUp && !quarantine.marker

inductive Event where
  | start
  | openSegment (stem : Text)
  | grow (size : Nat)
  | close
  | beginScan (finalize : Bool)
  | visitFile (oracle : Oracle) (crash : Option Nat)
  | endSession
  | beginRecovery (candidates : List (Text × Kind))
  | visitCandidate (oracle : Oracle) (crash : Option Nat)
  | restart

section Steps

variable (before : Text → Text → Prop) [DecidableRel before] (maxAttempts : Nat)

/-- The `.ts` files of the camera in the order of `localeCompare`. -/
def tsFiles (s : Recorder) : List Text :=
  ((s.segments.filter fun seg => seg.ts.isSome).map Segment.stem).insertionSort before

/-- The newest file may be the one that `ffmpeg` is writing. -/
def scanCandidates (s : Recorder) (finalize : Bool) : List Text :=
  if finalize then tsFiles before s else (tsFiles before s).dropLast

/-- The scan has nothing more to do with this file. -/
def scanKnows (o : Oracle) (seg : Segment) : Bool :=
  seg.tsQuarantine.marker || seg.ts = some 0 || (attemptTs maxAttempts o seg).2 ≠ .failed ||
    (registerSegmentRemuxFailure maxAttempts o.marks seg.tsQuarantine).2

/-- The file goes to `remuxAndRegisterTsSegment`, which does not discard it. -/
def attempts (seg : Segment) : Bool := !seg.tsQuarantine.marker && seg.ts ≠ some 0

/-- The file after a visit, with the books of the attempt if there was one. -/
def Recorder.visited (s : Recorder) (o : Oracle) (stem : Text) (seg : Segment)
    (effects : List Effect) (attempted : Bool) : Recorder :=
  let seen := s.apply stem effects
  if attempted then
    seen.tally stem (attemptTs maxAttempts o seg).2 (givenUpUnmarked maxAttempts o seg)
  else seen

/-- One file of `performSegmentScan`. A file that is gone ends the scan. -/
def visitFile (o : Oracle) (crash : Option Nat) (s : Recorder) (session : Session) (stem : Text)
    (rest : List Text) : Recorder :=
  if stem ∈ session.knownFiles then { s with active := some { session with queue := rest } }
  else
    match s.segment stem with
    | none => { s with active := some { session with queue := [] } }
    | some seg =>
      if seg.ts = none ∧ seg.tsQuarantine.marker = false then
        { s with active := some { session with queue := [] } }
      else
        match crash with
        | some k => (s.apply stem ((scanSegment maxAttempts o seg).take k)).restart
        | none =>
          let known := if scanKnows maxAttempts o seg then stem :: session.knownFiles
            else session.knownFiles
          let seen := s.visited maxAttempts o stem seg (scanSegment maxAttempts o seg)
            (attempts seg)
          { seen with active := some { session with queue := rest, knownFiles := known } }

/-- The recovery hands the `.ts` to `remuxAndRegisterTsSegment`. -/
def recoveryAttempts (recovery : Recovery) (stem : Text) (kind : Kind) (seg : Segment) : Bool :=
  kind = .ts && !seg.tsQuarantine.marker && stem ∉ recovery.registeredPaths

/-- One candidate of `recoverOrphanedSegmentsInner`. -/
def visitCandidate (o : Oracle) (crash : Option Nat) (s : Recorder) (recovery : Recovery)
    (stem : Text) (kind : Kind) (rest : List (Text × Kind)) : Recorder :=
  match s.active, s.segment stem with
  | none, some seg =>
    let visit := recoverFile maxAttempts o (stem ∈ recovery.registeredPaths) seg kind
    match crash with
    | some k => (s.apply stem (visit.1.take k)).restart
    | none =>
      let registered := if visit.2 then stem :: recovery.registeredPaths
        else recovery.registeredPaths
      let seen := s.visited maxAttempts o stem seg visit.1
        (recoveryAttempts recovery stem kind seg)
      { seen with recovery := some ⟨rest, registered⟩ }
  | _, _ => { s with recovery := some { recovery with candidates := rest } }

/-- A file that the recovery lists: there, and of a `.mp4` no row. -/
def isOrphan (s : Recorder) (candidate : Text × Kind) : Bool :=
  match s.segment candidate.1, candidate.2 with
  | none, _ => false
  | some seg, .ts => seg.ts.isSome
  | some seg, .mp4 => seg.mp4.isSome && seg.rows = 0

def registeredStems (s : Recorder) : List Text :=
  (s.segments.filter fun seg => 0 < seg.rows).map Segment.stem

/-- `ffmpeg` opens a file, over the one of that name if there is one. -/
def openSegment (s : Recorder) (stem : Text) : Recorder :=
  match s.segment stem with
  | none =>
    { s with
      writing := some stem
      segments := s.segments ++ [⟨stem, some 0, none, 0, ⟨0, false⟩, ⟨0, false⟩⟩] }
  | some _ =>
    { s with
      writing := some stem
      segments := updateAt Segment.stem s.segments stem fun seg => { seg with ts := some 0 } }

def written (size : Nat) (seg : Segment) : Segment :=
  { seg with ts := seg.ts.map fun old => old + size }

def step (s : Recorder) : Event → Option Recorder
  | .start =>
    match s.active with
    | some _ => none
    | none => some { s with active := some ⟨[], [], false⟩, writing := none }
  | .openSegment stem => if s.active.isSome then some (openSegment s stem) else none
  | .grow size =>
    match s.writing with
    | none => none
    | some stem =>
      some { s with segments := updateAt Segment.stem s.segments stem (written size) }
  | .close => some { s with writing := none }
  | .beginScan finalize =>
    match s.active with
    | some session =>
      if session.queue = [] then
        some { s with
          active := some (session.list (scanCandidates before s finalize) finalize) }
      else none
    | none => none
  | .visitFile o crash =>
    match s.active with
    | none => none
    | some session =>
      match session.queue with
      | [] => none
      | stem :: rest => some (visitFile maxAttempts o crash s session stem rest)
  | .endSession =>
    match s.active with
    | some session =>
      if session.queue = [] ∧ s.writing = none then some { s with active := none } else none
    | none => none
  | .beginRecovery candidates =>
    if candidates.all (isOrphan s) then
      some { s with recovery := some ⟨candidates, registeredStems s⟩ }
    else none
  | .visitCandidate o crash =>
    match s.recovery with
    | none => none
    | some recovery =>
      match recovery.candidates with
      | [] => none
      | (stem, kind) :: rest =>
        some (visitCandidate maxAttempts o crash s recovery stem kind rest)
  | .restart => some s.restart

end Steps

end DracVms.SegmentScan
