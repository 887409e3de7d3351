import DracVms.Recordings.RecorderStops

namespace DracVms.Recorder

open List

/-- The callers by which the manager asks for a start itself. -/
def Caller.own : Caller → Bool
  | .restart => true
  | .diskGuard => true
  | .boot => true
  | _ => false

/-- A start under way, and who asked for it. -/
def Task.start : Task → Option Caller
  | .check caller => some caller
  | .probe caller _ => some caller
  | .confirm caller _ => some caller
  | _ => none

/-- The steps at which the operator's word reaches the row. -/
inductive Operates (s : Manager) : Event → Prop where
  | mode (enabled : Bool) : Operates s (.setMotionRecording enabled)
  | start (index : Nat) (process : Option Nat) :
      s.tasks[index]? = some (.confirm .operator process) → Operates s (.resume index true)
  | stop (index : Nat) : s.tasks[index]? = some (.stop .operator) → Operates s (.resume index true)

/-- No start that the manager asked for itself is under way. -/
def Manager.settled (s : Manager) : Prop :=
  ∀ task ∈ s.tasks, ∀ caller ∈ task.start, caller.own = false

/-- What a call finds when it goes on: a motion or a blind detector finds an armed camera recording
already, the quiet timer finds nothing to stop, and a stop of the operator overtakes no start of the
manager's own. -/
def Task.undisturbed (s : Manager) (task : Task) : Prop :=
  (task = .motionLookup ∨ task = .failsafeLookup true →
      s.enabled = true → s.mode = .armed → s.active.isSome = true) ∧
    (task = .quietLookup → s.mode = .armed → s.recordingEnabled = false) ∧
    (task = .stop .operator → s.settled)

/-- And `stopAll` finds no recorder, the limit of a manual recording does not run out, and arming
and disarming overtake no start of the manager's own. -/
def Undisturbed (s : Manager) : Event → Prop
  | .stopAll => s.active = none
  | .shutdown => s.active = none
  | .manualStopTimer => False
  | .setMotionRecording _ => s.settled
  | .resume index ok => ok = true → ∀ task ∈ s.tasks[index]?, task.undisturbed s
  | _ => True

/-- The calls under way are the operator's, or starts of the manager's own, which write what the row
says already. -/
structure Kept (s : Manager) : Prop where
  starts : ∀ task ∈ s.tasks, ∀ caller, task.start = some caller →
    caller = .operator ∨ caller.own = true ∧ s.recordingEnabled = true
  stops : ∀ caller, .stop caller ∈ s.tasks → caller = .operator

variable {s t : Manager} {a : Event}

/-- The row changes where arming and disarming write it, and where a start or a stop does. -/
theorem step_flag (taken : step s a = some t) : t.recordingEnabled = s.recordingEnabled ∨
    (∃ enabled, a = .setMotionRecording enabled) ∨ ∃ index, a = .resume index true ∧
      ((∃ caller process, s.tasks[index]? = some (.confirm caller process) ∧
        t.recordingEnabled = true) ∨
      ∃ caller, s.tasks[index]? = some (.stop caller) ∧ t.recordingEnabled = false) := by
  cases a with
  | start | motionDetected =>
    cases taken
    exact Or.inl rfl
  | setMotionRecording enabled => exact Or.inr (Or.inl ⟨enabled, rfl⟩)
  | reboot autoStart =>
    cases taken
    refine Or.inl ?_
    unfold reboot
    split
    all_goals rfl
  | resume index ok =>
    have goes := taken
    obtain ⟨task, found, goes⟩ := Option.bind_eq_some_iff.mp goes
    by_cases silent : task.writes ok = false
    · exact Or.inl (resume_calm goes silent).flag
    · cases task with
      | confirm caller process =>
        cases ok with
        | false => exact absurd rfl silent
        | true =>
          cases goes
          refine Or.inr (Or.inr ⟨index, rfl, Or.inl ⟨caller, process, found, ?_⟩⟩)
          cases caller <;> rfl
      | stop caller =>
        cases ok with
        | false => exact absurd rfl silent
        | true =>
          cases goes
          exact Or.inr (Or.inr ⟨index, rfl, Or.inr ⟨caller, found, rfl⟩⟩)
      | cancel =>
        cases goes
        refine Or.inl ?_
        unfold stopActive
        split
        all_goals rfl
      | finish process =>
        rw [resume] at goes
        split at goes
        · cases goes
          exact Or.inl rfl
        · cases goes
      | check caller | probe caller seen | rollback process | wait process | suspend process
      | finalize process abnormal | motionLookup | failsafeLookup cego | quietLookup | restartLookup
      | diskGuardLookup => exact absurd rfl silent
  | stop | report cego | motionStopTimer | manualStopTimer | restartTimer | suspend | diskGuard
  | stopAll | shutdown | setEnabled enabled | die process =>
    exact Or.inl (step_calm taken rfl (by simp)).flag

/-- A start that is born is the operator's, or the manager has just read that one is wanted. -/
theorem born_start (undisturbed : Undisturbed s a) (kept : Kept s) {task : Task}
    (born : task.born s a t) (caller : Caller) (start : task.start = some caller) :
    caller = .operator ∨ caller.own = true ∧ s.recordingEnabled = true := by
  cases task with
  | check caller =>
    cases start
    cases born with
    | start => exact Or.inl rfl
    | motion index found enabled armed idle =>
      have running := (undisturbed rfl _ found).1 (Or.inl rfl) enabled armed
      rw [idle] at running
      cases running
    | failsafe index found enabled armed idle =>
      have running := (undisturbed rfl _ found).1 (Or.inr rfl) enabled armed
      rw [idle] at running
      cases running
    | restart index found enabled flag | diskGuard index found enabled continuous flag
    | boot enabled continuous flag => exact Or.inr ⟨rfl, flag⟩
  | probe caller seen =>
    cases start
    exact kept.starts _ born.1 _ rfl
  | confirm caller process =>
    cases start
    rcases born.1 with looks | ⟨seen, probes⟩
    · exact kept.starts _ looks _ rfl
    · exact kept.starts _ probes _ rfl
  | rollback process | stop caller | cancel | wait process | finish process | suspend process
  | finalize process abnormal | motionLookup | failsafeLookup cego | quietLookup | restartLookup
  | diskGuardLookup => cases start

theorem born_stop (undisturbed : Undisturbed s a) (caller : Caller)
    (born : Asks s a caller false) : caller = .operator := by
  cases born with
  | stop => rfl
  | manualTimer => exact undisturbed.elim
  | quiet index found armed flag =>
    have unwanted := (undisturbed rfl _ found).2.1 rfl armed
    rw [flag] at unwanted
    cases unwanted
  | stopAll running | shutdown running =>
    rw [show s.active = none from undisturbed] at running
    cases running

theorem step_kept (s : Manager) (a : Event) (t : Manager) (undisturbed : Undisturbed s a)
    (kept : Kept s) (taken : step s a = some t) :
    Kept t ∧ (t.recordingEnabled ≠ s.recordingEnabled → Operates s a) := by
  have grown := step_grown taken
  have stops : ∀ caller, .stop caller ∈ t.tasks → caller = .operator := by
    intro caller member
    rcases grown _ member with old | born
    · exact kept.stops caller old
    · exact born_stop undisturbed caller born
  have starts : ∀ task ∈ t.tasks, ∀ caller, task.start = some caller →
      caller = .operator ∨ caller.own = true ∧ s.recordingEnabled = true := by
    intro task member caller start
    rcases grown task member with old | born
    · exact kept.starts task old caller start
    · exact born_start undisturbed kept born caller start
  have overtakes : s.settled → (∀ task ∈ t.tasks, task ∈ s.tasks ∨ task.start = none) →
      Kept t := by
    intro settled calls
    refine ⟨fun task member caller start => ?_, stops⟩
    rcases calls task member with old | silent
    · refine (starts task member caller start).imp_right fun own => ?_
      have other := settled task old caller start
      rw [own.1] at other
      cases other
    · rw [silent] at start
      cases start
  rcases step_flag taken with same | ⟨enabled, rfl⟩ | ⟨index, rfl, wrote⟩
  · refine ⟨⟨?_, stops⟩, fun changes => absurd same changes⟩
    rw [same]
    exact starts
  · refine ⟨overtakes undisturbed ?_, fun _ => .mode enabled⟩
    cases taken
    exact fun task member => Or.inl member
  · rcases wrote with ⟨caller, process, found, raised⟩ | ⟨caller, found, lowered⟩
    · refine ⟨⟨fun task member other start => ?_, stops⟩, fun changes => ?_⟩
      · exact (starts task member other start).imp_right fun own => ⟨own.1, raised⟩
      · rcases kept.starts _ (List.mem_of_getElem? found) caller rfl with rfl | ⟨-, wanted⟩
        · exact .start index process found
        · exact absurd (raised.trans wanted.symm) changes
    · have own := kept.stops caller (List.mem_of_getElem? found)
      subst own
      refine ⟨overtakes ((undisturbed rfl _ found).2.2 rfl) ?_, fun _ => .stop index found⟩
      obtain ⟨other, same, goes⟩ := Option.bind_eq_some_iff.mp taken
      rw [found] at same
      cases same
      cases goes
      intro task member
      rcases mem_drop_await member with old | rfl
      · exact Or.inl old
      · exact Or.inr rfl

theorem booted_kept (booted : Booted s) : Kept s := by
  refine ⟨?_, ?_⟩
  all_goals simp [booted.tasks]

/-- After a boot, a recording is resumed exactly where one was wanted, and continuous. -/
def Resumed (s : Manager) (a : Event) (t : Manager) : Prop :=
  ∀ autoStart, a = .reboot autoStart →
    ((autoStart = true ∧ s.enabled = true ∧ s.mode = .continuous ∧ s.recordingEnabled = true) ↔
      ∃ u, Runs.run step t [.resume 0 true, .resume 0 true] = some u ∧
        ∃ p ∈ u.processes, p.alive = true ∧ u.active = some p.id)

theorem step_resumed (taken : step s a = some t) : Resumed s a t := by
  rintro autoStart rfl
  cases taken
  constructor
  · rintro ⟨rfl, enabled, continuous, flag⟩
    obtain ⟨_, _, _, active, processes, spawned, _, _, _, _, _, _, _, _, _⟩ := s
    cases enabled
    cases continuous
    cases flag
    refine ⟨_, rfl, ⟨spawned, true, false, false, false⟩, ?_, rfl, rfl⟩
    exact mem_append_right _ (mem_singleton_self _)
  · rintro ⟨u, reached, -⟩
    unfold reboot at reached
    split at reached
    · rename_i wanted
      simp only [Bool.and_eq_true, decide_eq_true_eq] at wanted
      exact ⟨wanted.1.1.1, wanted.1.1.2, wanted.2, wanted.1.2⟩
    · cases reached

instance (s : Manager) : Decidable s.settled :=
  inferInstanceAs (Decidable (∀ task ∈ s.tasks, ∀ caller ∈ task.start, caller.own = false))

instance (s : Manager) (task : Task) : Decidable (task.undisturbed s) :=
  inferInstanceAs (Decidable ((_ → _ → _ → _) ∧ (_ → _ → _) ∧ (_ → _)))

instance (s : Manager) (a : Event) : Decidable (Undisturbed s a) :=
  match a with
  | .stopAll | .shutdown => inferInstanceAs (Decidable (s.active = none))
  | .manualStopTimer => isFalse id
  | .setMotionRecording _ => inferInstanceAs (Decidable s.settled)
  | .resume index ok => inferInstanceAs
      (Decidable (ok = true → ∀ task ∈ s.tasks[index]?, task.undisturbed s))
  | .start | .stop | .motionDetected | .report _ | .motionStopTimer | .restartTimer | .suspend
  | .diskGuard | .setEnabled _ | .die _ | .reboot _ => isTrue trivial

/-- A camera that is to record all the time. -/
def continuousCamera : Manager :=
  { quietCamera with mode := .continuous, recordingEnabled := true }

theorem continuousCamera_booted : Booted continuousCamera := ⟨rfl, rfl, rfl, rfl, rfl⟩

/-- The camera records after a boot, its recorder dies and is started again, until the operator stops
it. -/
def resumedRecording : List Event :=
  [.reboot true, .resume 0 true, .resume 0 true, .resume 0 true, .die 0, .resume 0 true,
    .restartTimer, .resume 0 true, .resume 0 true, .resume 0 true, .resume 0 true, .stop]

/-- The camera records, and a commercial restriction stops all recorders. -/
def restricted : List Event :=
  [.reboot true, .resume 0 true, .resume 0 true, .resume 0 true, .stopAll]

end DracVms.Recorder
