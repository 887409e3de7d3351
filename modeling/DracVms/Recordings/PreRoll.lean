import DracVms.Library.Json
import DracVms.Library.KeyedList

namespace DracVms.PreRoll

open Json (Text)
open KeyedList (lookup updateAt)

/-- A `.ts` of the ring: when it was last written to, and whether `ffmpeg` is through with it. -/
structure RingFile where
  name : Text
  mtimeMs : Int
  closed : Bool
  deriving DecidableEq

/-- The files of one name in the archive. -/
inductive Files where
  | ts
  | mp4
  | both
  deriving DecidableEq

/-- What the archive holds under one name, in the `.mp4` if there is one: a segment of the ring, or
something else. -/
structure Archived where
  name : Text
  segment : Option RingFile
  files : Files

/-- Year, month and day in UTC. -/
def utcDate (days : Int) : Int × Int × Int :=
  let z := days + 719468
  let era := z / 146097
  let doe := z % 146097
  let yoe := (doe - doe / 1460 + doe / 36524 - doe / 146096) / 365
  let doy := doe - (365 * yoe + yoe / 4 - yoe / 100)
  let mp := (5 * doy + 2) / 153
  let month := if mp < 10 then mp + 3 else mp - 9
  (yoe + era * 400 + (if month ≤ 2 then 1 else 0), month, doy - (153 * mp + 2) / 5 + 1)

/-- `String(n).padStart(2, '0')` -/
def p2 (n : Int) : Text :=
  let digits := Nat.toDigits 10 n.toNat
  List.replicate (2 - digits.length) '0' ++ digits

/-- The name in the archive, without its extension: the second in which the segment began. -/
def destName (mtimeMs : Int) : Text :=
  let seconds := (mtimeMs - 2000) / 1000
  let (year, month, day) := utcDate (seconds / 86400)
  let time := seconds % 86400
  Nat.toDigits 10 year.toNat ++ ['-'] ++ p2 month ++ ['-'] ++ p2 day ++ ['_'] ++
    p2 (time / 3600) ++ ['-'] ++ p2 (time / 60 % 60) ++ ['-'] ++ p2 (time % 60)

example : destName 1785924005000 = "2026-08-05_10-00-03".toList := by decide +kernel

/-- How far `handleMotionDetected` has come. A promotion has files that it has still to move, and so
has the end of the ring files that it has still to remove. -/
inductive Phase where
  | idle
  | triggered (triggeredAtMs : Int)
  | promoting (triggeredAtMs : Int) (queue : List Text)
  | starting (triggeredAtMs : Int)
  | catchingUp (triggeredAtMs confirmedMs : Int) (queue : List Text)
  | stopping (triggeredAtMs confirmedMs : Int)
  | wiping (triggeredAtMs confirmedMs : Int) (queue : List Text)
  | recording (triggeredAtMs confirmedMs : Int)
  deriving DecidableEq

/-- The ring of one camera. The last two fields are not in the code: the ring segments that were
closed so far, and those that the recording which has just started must not miss. -/
structure Camera where
  now : Int
  buffering : Bool
  writing : Option Text
  ring : List RingFile
  archive : List Archived
  phase : Phase
  segments : List RingFile
  due : List RingFile

inductive Event where
  | elapse (ms : Nat)
  | startPreBuffer
  | openFile (name : Text)
  | write
  | exit
  | prune
  | record (name : Text)
  | remux (name : Text)
  | trigger
  | promotePreRoll
  | promote (moves remuxes : Bool)
  | endPromotion
  | started
  | startFailed
  | stopPreBuffer
  | unlink
  | rearm

def RingFile.finished (now : Int) (file : RingFile) : RingFile :=
  { file with mtimeMs := now, closed := true }

def RingFile.written (now : Int) (file : RingFile) : RingFile := { file with mtimeMs := now }

/-- `ffmpeg` finishes the file that it has open. -/
def closeFile (s : Camera) : Camera :=
  match s.writing with
  | none => s
  | some name =>
    { s with
      writing := none
      ring := updateAt RingFile.name s.ring name (RingFile.finished s.now)
      segments := ((s.ring.filter fun file => file.name = name).map
        (RingFile.finished s.now)) ++ s.segments }

/-- `ffmpeg` goes on to the next file, over the one of that name if there is one. -/
def openFile (s : Camera) (name : Text) : Camera :=
  let t := closeFile s
  { t with
    writing := some name
    ring := (t.ring.filter fun file => file.name ≠ name) ++ [⟨name, s.now, false⟩] }

/-- A `.ts` is written over the one of that name. -/
def Archived.recorded (entry : Archived) : Archived :=
  match entry.files with
  | .ts => { entry with segment := none }
  | .mp4 => { entry with files := .both }
  | .both => entry

/-- The recorder opens a `.ts` in the archive. -/
def record (archive : List Archived) (name : Text) : List Archived :=
  match lookup Archived.name archive name with
  | none => archive ++ [⟨name, none, .ts⟩]
  | some _ => updateAt Archived.name archive name Archived.recorded

/-- A `.ts` becomes the `.mp4`, unless there is one. -/
def Archived.remuxed (entry : Archived) : Archived := { entry with files := .mp4 }

section Steps

variable (preEventMs : Nat)

/-- The files that `promotePreRoll` moves: all but the last, as far as they lie in the window. -/
def candidates (s : Camera) (triggerAt : Int) : List Text :=
  let files := s.ring.insertionSort fun first second => first.name ≤ second.name
  (files.dropLast.filter fun file =>
    triggerAt - preEventMs ≤ file.mtimeMs && file.mtimeMs ≤ triggerAt + 2000).map RingFile.name

def removeFile (s : Camera) (name : Text) : Camera :=
  { s with ring := s.ring.filter fun file => file.name ≠ name }

/-- One file of `promotePreRoll`. Where the archive has a `.mp4` of that name, this is taken for the
remux of the file, which is then removed. -/
def promoteFile (moves remuxes : Bool) (s : Camera) (name : Text) : Camera :=
  match lookup RingFile.name s.ring name with
  | none => s
  | some file =>
    match lookup Archived.name s.archive (destName file.mtimeMs) with
    | some entry => if entry.files ≠ .mp4 || !moves then s else removeFile s name
    | none =>
      if moves then
        { removeFile s name with
          archive := s.archive ++
            [⟨destName file.mtimeMs, some file, if remuxes then .mp4 else .ts⟩] }
      else s

/-- `prunePreBuffers`, which spares no file for being the newest. -/
def prune (s : Camera) : Camera :=
  if s.buffering then
    { s with ring := s.ring.filter fun file => s.now - file.mtimeMs ≤ preEventMs + 6000 }
  else s

def step (s : Camera) : Event → Option Camera
  | .elapse ms => some { s with now := s.now + ms }
  | .startPreBuffer => some { s with buffering := true }
  | .openFile name => if s.buffering then some (openFile s name) else none
  | .write => s.writing.map fun name =>
    { s with ring := updateAt RingFile.name s.ring name (RingFile.written s.now) }
  | .exit => some { s with buffering := false, writing := none }
  | .prune => some (prune preEventMs s)
  | .record name => some { s with archive := record s.archive name }
  | .remux name =>
    some { s with archive := updateAt Archived.name s.archive name Archived.remuxed }
  | .trigger =>
    match s.phase with
    | .idle => some { s with phase := .triggered s.now }
    | _ => none
  | .promotePreRoll =>
    match s.phase with
    | .triggered triggeredAtMs =>
      if s.buffering then
        some { s with
          phase := .promoting triggeredAtMs (candidates preEventMs s triggeredAtMs) }
      else some { s with phase := .starting triggeredAtMs }
    | _ => none
  | .promote moves remuxes =>
    match s.phase with
    | .promoting triggeredAtMs (name :: rest) =>
      some { promoteFile moves remuxes s name with phase := .promoting triggeredAtMs rest }
    | .catchingUp triggeredAtMs confirmedMs (name :: rest) =>
      some { promoteFile moves remuxes s name with
        phase := .catchingUp triggeredAtMs confirmedMs rest }
    | _ => none
  | .endPromotion =>
    match s.phase with
    | .promoting triggeredAtMs [] => some { s with phase := .starting triggeredAtMs }
    | .catchingUp triggeredAtMs confirmedMs [] =>
      some { s with phase := .stopping triggeredAtMs confirmedMs }
    | _ => none
  | .started =>
    match s.phase with
    | .starting triggeredAtMs =>
      some { s with
        due := s.segments.filter fun file => triggeredAtMs - preEventMs ≤ file.mtimeMs
        phase := if s.buffering then
          .catchingUp triggeredAtMs s.now (candidates preEventMs s s.now)
          else .stopping triggeredAtMs s.now }
    | _ => none
  | .startFailed =>
    match s.phase with
    | .starting _ => some { s with phase := .idle }
    | _ => none
  | .stopPreBuffer =>
    match s.phase with
    | .stopping triggeredAtMs confirmedMs =>
      if s.buffering then
        some { s with
          buffering := false
          writing := none
          phase := .wiping triggeredAtMs confirmedMs (s.ring.map RingFile.name) }
      else some { s with phase := .recording triggeredAtMs confirmedMs }
    | _ => none
  | .unlink =>
    match s.phase with
    | .wiping triggeredAtMs confirmedMs (name :: rest) =>
      some { removeFile s name with phase := .wiping triggeredAtMs confirmedMs rest }
    | .wiping triggeredAtMs confirmedMs [] =>
      some { s with phase := .recording triggeredAtMs confirmedMs }
    | _ => none
  | .rearm =>
    match s.phase with
    | .recording _ _ =>
      some { s with phase := .idle, segments := s.ring.filter RingFile.closed, due := [] }
    | _ => none

end Steps

end DracVms.PreRoll
