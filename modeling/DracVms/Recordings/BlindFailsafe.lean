import DracVms.Library.Runs

namespace DracVms.BlindFailsafe

inductive Caller where
  | failsafe
  | manual
  | motion
  deriving DecidableEq

/-- Who stops a recorder: the quiet timer or the manual one, the operator, or a start that fails
after its `ffmpeg` is up. -/
inductive Origin where
  | timer
  | operator
  | rollback
  deriving DecidableEq

/-- What waits for an answer from outside, and goes on with it. -/
inductive Task where
  | lookup (cego : Bool)
  | motionLookup
  | start (caller : Caller)
  | probe (caller : Caller)
  | confirm (caller : Caller) (recorder : Option Nat)
  | quiet
  | stop (origin : Origin)
  | kill (origin : Origin) (recorder : Nat)
  deriving DecidableEq

/-- What the manager knows of one camera, with its row. The last field is not in the code: whether a
timer has stopped a recorder that the failsafe held. -/
structure Manager where
  armed : Bool
  enabled : Bool
  recordingEnabled : Bool
  blindFailsafe : Bool
  active : Option Nat
  spawned : Nat
  motionStopTimer : Bool
  manualStopTimer : Bool
  tasks : List Task
  stoppedHeld : Bool
  deriving DecidableEq

def Manager.await (s : Manager) (task : Task) : Manager := { s with tasks := s.tasks ++ [task] }

inductive Event where
  | report (cego : Bool)
  | motionDetected
  | startManualRecording
  | stopManualRecording
  | motionStopTimer
  | manualStopTimer
  | edit (armed enabled : Bool)
  | resume (index : Nat) (ok : Bool)

/-- The camera is armed, and the failsafe has it. -/
def Manager.held (s : Manager) : Bool := s.blindFailsafe && s.armed && s.enabled

/-- `definirFailsafeDetectorCego` with the row of the camera. -/
def definirFailsafe (s : Manager) (cego : Bool) : Manager :=
  if !(s.enabled && s.armed) then { s with blindFailsafe := false }
  else if cego then
    let marked := { s with blindFailsafe := true, motionStopTimer := false }
    if s.active.isSome then marked else marked.await (.start .failsafe)
  else { s with blindFailsafe := false, motionStopTimer := true }

/-- `handleMotionDetected` with the row of the camera. -/
def handleMotion (s : Manager) : Manager :=
  if !(s.enabled && s.armed) then s
  else if s.active.isSome then { s with motionStopTimer := true }
  else s.await (.start .motion)

/-- What a start that succeeded leaves to be stopped later. -/
def schedule (s : Manager) : Caller → Manager
  | .failsafe => s
  | .manual => { s with manualStopTimer := true }
  | .motion => { s with motionStopTimer := true }

def spawn (s : Manager) (caller : Caller) : Manager :=
  { s with active := some s.spawned, spawned := s.spawned + 1 }.await
    (.confirm caller (some s.spawned))

/-- `stop`, once the row says that nothing is to be recorded. -/
def stopActive (s : Manager) (origin : Origin) : Manager :=
  match s.active with
  | none => { s with recordingEnabled := false }
  | some recorder =>
    { s with
      recordingEnabled := false
      stoppedHeld := s.stoppedHeld || (origin = Origin.timer && s.held) }.await
        (.kill origin recorder)

/-- A task goes on, with the answer that it waited for or with an error. -/
def resume (s : Manager) : Task → Bool → Manager
  | .lookup cego, true => definirFailsafe s cego
  | .lookup _, false => s
  | .motionLookup, true => handleMotion s
  | .motionLookup, false => s
  | .start caller, true =>
    if !s.enabled then s
    else if s.active.isSome then s.await (.confirm caller none)
    else s.await (.probe caller)
  | .start _, false => s
  | .probe caller, true => spawn s caller
  | .probe _, false => s
  | .confirm caller _, true => schedule { s with recordingEnabled := true } caller
  | .confirm _ (some recorder), false => s.await (.kill .rollback recorder)
  | .confirm _ none, false => s
  | .quiet, true => if s.armed && s.recordingEnabled then s.await (.stop .timer) else s
  | .quiet, false => s
  | .stop origin, true => stopActive s origin
  | .stop _, false => s
  | .kill _ recorder, _ => if s.active = some recorder then { s with active := none } else s

def step (s : Manager) : Event → Option Manager
  | .report cego => some (if cego = s.blindFailsafe then s else s.await (.lookup cego))
  | .motionDetected => some (s.await .motionLookup)
  | .startManualRecording =>
    some ({ s with motionStopTimer := false, manualStopTimer := false }.await (.start .manual))
  | .stopManualRecording => some ({ s with manualStopTimer := false }.await (.stop .operator))
  | .motionStopTimer =>
    if s.motionStopTimer then
      let fired := { s with motionStopTimer := false }
      some (if s.blindFailsafe then fired else fired.await .quiet)
    else none
  | .manualStopTimer =>
    if s.manualStopTimer then some ({ s with manualStopTimer := false }.await (.stop .timer))
    else none
  | .edit armed enabled => some { s with armed := armed, enabled := enabled }
  | .resume index ok =>
    s.tasks[index]?.map fun task => resume { s with tasks := s.tasks.eraseIdx index } task ok

end DracVms.BlindFailsafe
