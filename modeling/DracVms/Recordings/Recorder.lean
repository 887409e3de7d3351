import DracVms.Library.KeyedList

namespace DracVms.Recorder

open KeyedList (updateAt)

inductive Mode where
  | continuous
  | armed
  | manual
  deriving DecidableEq

/-- Who calls `start` or `stop`. -/
inductive Caller where
  | operator
  | motion
  | failsafe
  | quiet
  | manualTimer
  | restart
  | diskGuard
  | boot
  | stopAll
  deriving DecidableEq

/-- The mode that a caller asks for. -/
def Caller.requested : Caller → Option Mode
  | .operator => some .manual
  | .manualTimer => some .manual
  | .diskGuard => some .continuous
  | _ => none

/-- A manual recording does not disarm a camera. -/
def resolveRecordingModeUpdate (mode : Mode) : Option Mode → Mode
  | none => mode
  | some .manual => if mode = .armed then mode else .manual
  | some requested => requested

/-- An `ffmpeg` that was spawned, with what its state says. -/
structure Process where
  id : Nat
  alive : Bool
  stopRequested : Bool
  finalizing : Bool
  finalized : Bool
  deriving DecidableEq

def Process.killed (process : Process) : Process := { process with alive := false }
def Process.requestStop (process : Process) : Process := { process with stopRequested := true }
def Process.finalize (process : Process) : Process := { process with finalizing := true }
def Process.finish (process : Process) : Process := { process with finalized := true }

/-- A call that waits: `start` before and after it looks into `active` (`seen` is not in the code:
how many recorders had been spawned when it looked), before it writes the row, and while it takes
back a recorder; `stop` before it writes the row, before it cancels the restart and looks into
`active`, while the process ends, and while the files are registered; the disk guard while the
process ends; the last scan of a recorder; and those that have asked for the row. -/
inductive Task where
  | check (caller : Caller)
  | probe (caller : Caller) (seen : Nat)
  | confirm (caller : Caller) (process : Option Nat)
  | rollback (process : Nat)
  | stop (caller : Caller)
  | cancel
  | wait (process : Nat)
  | finish (process : Nat)
  | suspend (process : Nat)
  | finalize (process : Nat) (abnormal : Bool)
  | motionLookup
  | failsafeLookup (cego : Bool)
  | quietLookup
  | restartLookup
  | diskGuardLookup
  deriving DecidableEq

/-- The recorder manager of one camera, with the row of the camera. The last two fields are not in
the code: a stop has written the row, and it has returned, with no start asked for since. -/
structure Manager where
  enabled : Bool
  mode : Mode
  recordingEnabled : Bool
  active : Option Nat
  processes : List Process
  spawned : Nat
  restartTimer : Bool
  motionStopTimer : Bool
  manualStopTimer : Bool
  blindFailsafe : Bool
  diskGuardSuspended : Bool
  shuttingDown : Bool
  tasks : List Task
  final : Bool
  returned : Bool

inductive Event where
  | start
  | stop
  | motionDetected
  | report (cego : Bool)
  | motionStopTimer
  | manualStopTimer
  | restartTimer
  | suspend
  | diskGuard
  | stopAll
  | shutdown
  | setMotionRecording (enabled : Bool)
  | setEnabled (enabled : Bool)
  | die (process : Nat)
  | resume (index : Nat) (ok : Bool)
  | reboot (autoStart : Bool)

def Manager.await (s : Manager) (task : Task) : Manager := { s with tasks := s.tasks ++ [task] }

def Manager.drop (s : Manager) (index : Nat) : Manager :=
  { s with tasks := s.tasks.eraseIdx index }

def Manager.change (s : Manager) (process : Nat) (change : Process → Process) : Manager :=
  { s with processes := updateAt Process.id s.processes process change }

def Manager.any (s : Manager) (process : Nat) (p : Process → Bool) : Bool :=
  s.processes.any fun other => other.id = process && p other

/-- Somebody wants a recording from now on. -/
def Manager.wanted (s : Manager) : Manager := { s with final := false, returned := false }

/-- `finalizeRecordingState`, once for each process. -/
def finalizeRecordingState (s : Manager) (process : Nat) : Manager :=
  if s.any process Process.finalizing then s
  else (s.change process Process.finalize).await
    (.finalize process (!s.any process Process.stopRequested))

/-- The row that `start` and `stop` write. -/
def Manager.write (s : Manager) (caller : Caller) (recordingEnabled : Bool) : Manager :=
  { s with
    recordingEnabled := recordingEnabled
    mode := resolveRecordingModeUpdate s.mode caller.requested }

/-- `stop` after its row: with a recorder it waits for the process. -/
def stopActive (s : Manager) : Manager :=
  let t := { s with restartTimer := false }
  match s.active with
  | none => { t with returned := true }
  | some process => (t.change process Process.requestStop).await (.wait process)

/-- The recorder is registered in the same turn in which it is spawned. -/
def spawn (s : Manager) (caller : Caller) : Manager :=
  let process : Process := ⟨s.spawned, true, false, false, false⟩
  { s with
    processes := s.processes ++ [process]
    active := some process.id
    spawned := s.spawned + 1 }.await (.confirm caller (some process.id))

/-- What the caller of a start does after it. -/
def started (s : Manager) : Caller → Manager
  | .operator => { s with manualStopTimer := true }
  | .motion => { s with motionStopTimer := true }
  | .diskGuard => { s with diskGuardSuspended := false }
  | _ => s

/-- `scheduleRecordingRestart`, if the brake allows it. -/
def scheduleRestart (s : Manager) (process : Nat) (allowed : Bool) : Manager :=
  if s.any process Process.stopRequested || s.shuttingDown || s.active.isSome || !allowed then s
  else { s with restartTimer := true }

/-- The files of the process are registered, and `active` no longer has it. -/
def forget (s : Manager) (process : Nat) : Manager :=
  let done := s.change process Process.finish
  if s.active = some process then { done with active := none } else done

/-- The end of `finalizeRecordingState`. -/
def finalized (s : Manager) (process : Nat) (abnormal allowed : Bool) : Manager :=
  if abnormal then scheduleRestart (forget s process) process allowed else forget s process

/-- `definirFailsafeDetectorCego` with the row of the camera. -/
def definirFailsafe (s : Manager) (cego : Bool) : Manager :=
  if !(s.enabled && s.mode = .armed) then { s with blindFailsafe := false }
  else if cego then
    let marked := { s with blindFailsafe := true, motionStopTimer := false }
    if s.active.isSome then marked else marked.await (.check .failsafe)
  else { s with blindFailsafe := false, motionStopTimer := true }

/-- A call goes on. Where it waits for the end of a process, `ok` says that the process has ended,
and its absence that the wait is given up. -/
def resume (s : Manager) : Task → Bool → Option Manager
  | .check caller, true =>
    some (if !s.enabled then s
      else if s.active.isSome then s.await (.confirm caller none)
      else s.await (.probe caller s.spawned))
  | .check _, false => some s
  | .probe caller _, true => some (spawn s caller)
  | .probe _ _, false => some s
  | .confirm caller _, true => some (started (s.write caller true) caller)
  | .confirm _ none, false => some s
  | .confirm _ (some process), false =>
    some ((s.change process Process.requestStop).await (.rollback process))
  | .rollback process, ok =>
    if ok && s.any process Process.alive then none
    else some (finalizeRecordingState s process)
  | .stop caller, true => some ({ s.write caller false with final := true }.await .cancel)
  | .stop _, false => some s
  | .cancel, _ => some (stopActive s)
  | .wait process, ok =>
    if ok && s.any process Process.alive then none
    else some ((finalizeRecordingState s process).await (.finish process))
  | .finish process, _ =>
    if s.any process Process.finalized then some { s with returned := true } else none
  | .suspend process, ok =>
    if ok && s.any process Process.alive then none
    else some (finalizeRecordingState s process)
  | .finalize process abnormal, allowed => some (finalized s process abnormal allowed)
  | .motionLookup, ok =>
    some (if !(ok && s.enabled && s.mode = .armed) then s
      else if s.active.isSome then { s with motionStopTimer := true }
      else s.await (.check .motion))
  | .failsafeLookup cego, ok => some (if ok then definirFailsafe s cego else s)
  | .quietLookup, ok =>
    some (if ok && s.mode = .armed && s.recordingEnabled then s.await (.stop .quiet) else s)
  | .restartLookup, ok =>
    some (if ok && s.recordingEnabled && s.enabled then s.await (.check .restart) else s)
  | .diskGuardLookup, ok =>
    some (if ok && s.enabled && s.recordingEnabled && s.mode = .continuous then
      s.await (.check .diskGuard) else { s with diskGuardSuspended := false })

/-- The row that arming and disarming write, after the `stop` that they call. -/
def setMotionRecording (s : Manager) (enabled : Bool) : Manager :=
  { s with recordingEnabled := false, mode := if enabled then .armed else .manual }

/-- `stopAll`, as far as this camera goes. -/
def stopAll (s : Manager) : Manager := if s.active.isSome then s.await (.stop .stopAll) else s

/-- The process of the manager ends, and a new one starts with what is in the row. -/
def reboot (s : Manager) (autoStart : Bool) : Manager :=
  let t := { s with
    active := none
    processes := s.processes.map Process.killed
    restartTimer := false
    motionStopTimer := false
    manualStopTimer := false
    blindFailsafe := false
    diskGuardSuspended := false
    shuttingDown := false
    tasks := [] }
  if autoStart && s.enabled && s.recordingEnabled && s.mode = .continuous then
    t.await (.check .boot)
  else t

def step (s : Manager) : Event → Option Manager
  | .start =>
    some ({ s.wanted with motionStopTimer := false, manualStopTimer := false }.await
      (.check .operator))
  | .stop => some ({ s with manualStopTimer := false }.await (.stop .operator))
  | .motionDetected => some (s.wanted.await .motionLookup)
  | .report cego => some (if cego = s.blindFailsafe then s else s.await (.failsafeLookup cego))
  | .motionStopTimer =>
    if s.motionStopTimer then
      let fired := { s with motionStopTimer := false }
      some (if s.blindFailsafe then fired else fired.await .quietLookup)
    else none
  | .manualStopTimer =>
    if s.manualStopTimer then some ({ s with manualStopTimer := false }.await (.stop .manualTimer))
    else none
  | .restartTimer =>
    if s.restartTimer then
      let t := { s with restartTimer := false }
      some (if s.shuttingDown || s.active.isSome then t else t.await .restartLookup)
    else none
  | .suspend =>
    s.active.map fun process =>
      ({ s with diskGuardSuspended := true }.change process Process.requestStop).await
        (.suspend process)
  | .diskGuard => if s.diskGuardSuspended then some (s.await .diskGuardLookup) else none
  | .stopAll => some (stopAll s)
  | .shutdown =>
    some (stopAll { s with
      shuttingDown := true
      restartTimer := false
      motionStopTimer := false
      manualStopTimer := false })
  | .setMotionRecording enabled => some (setMotionRecording s enabled)
  | .setEnabled enabled => some { s with enabled := enabled }
  | .die process =>
    if s.any process Process.alive then
      some (finalizeRecordingState (s.change process Process.killed) process)
    else none
  | .resume index ok =>
    s.tasks[index]?.bind fun task => resume (s.drop index) task ok
  | .reboot autoStart => some (reboot s autoStart)

end DracVms.Recorder
