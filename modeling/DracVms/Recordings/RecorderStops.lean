import DracVms.Recordings.RecorderExclusion

namespace DracVms.Recorder

open List KeyedList

/-- Once a stop has returned and nobody has asked for a recording since, none runs, and the row says
that none is wanted. -/
def Stopped (s : Manager) : Prop :=
  s.returned = true → (∀ p ∈ s.processes, p.alive = false) ∧ s.recordingEnabled = false

/-- A start under way, or a motion that may ask for one. -/
def Task.starting : Task → Bool
  | .check _ => true
  | .probe _ _ => true
  | .confirm _ _ => true
  | .motionLookup => true
  | _ => false

/-- A stop that is about to write the row. -/
def Task.stops : Task → Bool
  | .stop _ => true
  | _ => false

/-- A stop that has written the row, and the process that it waits for once it has looked. -/
def Task.stopping : Task → Option (Option Nat)
  | .cancel => some none
  | .wait process => some (some process)
  | .finish process => some (some process)
  | _ => none

/-- No start is under way when a stop writes the row, and no detector is reported blind behind it. -/
def Task.timely (s : Manager) (ok : Bool) (task : Task) : Prop :=
  (task.stops = true → ok = true → ∀ other ∈ s.tasks, other.starting = false) ∧
    (task = .failsafeLookup true → ok = true → s.final = false)

/-- The events that ask for a recording. -/
def Event.asks : Event → Bool
  | .start => true
  | .motionDetected => true
  | _ => false

/-- And nobody asks for a recording while a stop that has written the row is still running. -/
def InTime (s : Manager) (a : Event) : Prop :=
  Orderly s a ∧ (a.asks = true → ∀ task ∈ s.tasks, task.stopping = none) ∧
    ∀ call ∈ a.resumed, ∀ task ∈ s.tasks[call.1]?, task.timely s call.2

/-- What a stop that has written the row leaves behind: no start is under way, and the recorder that
it waits for is the one in `active`, if there is one. -/
structure Final (s : Manager) : Prop where
  sound : Sound s
  flag : s.final = true → s.recordingEnabled = false
  silent : s.final = true → ∀ task ∈ s.tasks, task.starting = false
  ended : s.returned = true → s.final = true ∧ ∀ p ∈ s.processes, p.alive = false
  waiting : ∀ task ∈ s.tasks, ∀ target, task.stopping = some target →
    s.final = true ∧ ∀ id, target = some id → s.active = some id ∨ s.active = none
  finalized : ∀ p ∈ s.processes, p.finalized = true → s.active ≠ some p.id

/-- A step that does not write the row, and with which no stop gets on. -/
structure Calm (s t : Manager) : Prop where
  final : t.final = s.final
  returned : t.returned = s.returned
  flag : t.recordingEnabled = s.recordingEnabled

/-- The calls that write the row, or return from a stop. -/
def Task.writes (ok : Bool) : Task → Bool
  | .confirm _ _ => ok
  | .stop _ => ok
  | .cancel => true
  | .finish _ => true
  | _ => false

variable {s t : Manager} {a : Event}

theorem finalizeRecordingState_calm (process : Nat) :
    Calm s (finalizeRecordingState s process) := by
  unfold finalizeRecordingState
  split
  all_goals exact ⟨rfl, rfl, rfl⟩

theorem definirFailsafe_calm (cego : Bool) : Calm s (definirFailsafe s cego) := by
  unfold definirFailsafe
  split
  · exact ⟨rfl, rfl, rfl⟩
  · split
    · split
      all_goals exact ⟨rfl, rfl, rfl⟩
    · exact ⟨rfl, rfl, rfl⟩

theorem resume_calm {task : Task} {ok : Bool} (goes : resume s task ok = some t)
    (silent : task.writes ok = false) : Calm s t := by
  cases task with
  | check caller | probe caller seen | stop caller =>
    cases ok <;> grind [resume, Task.writes, Calm, Manager.await, spawn]
  | confirm caller process =>
    cases ok
    · cases process <;> grind [resume, Calm, Manager.await, Manager.change]
    · cases silent
  | cancel | finish process => cases silent
  | rollback process | suspend process | wait process =>
    grind [resume, Calm, Manager.await, finalizeRecordingState_calm]
  | finalize process abnormal => grind [resume, Calm, finalized_same]
  | motionLookup | quietLookup | restartLookup | diskGuardLookup =>
    grind [resume, Calm, Manager.await]
  | failsafeLookup cego => grind [resume, Calm, definirFailsafe_calm]

/-- The events after which the row, or what is asked for, is another. -/
def Event.speaks : Event → Bool
  | .start => true
  | .motionDetected => true
  | .setMotionRecording _ => true
  | .reboot _ => true
  | _ => false

theorem step_calm (taken : step s a = some t) (quiet : a.speaks = false)
    (silent : ∀ index ok, a = .resume index ok → ∀ task, s.tasks[index]? = some task →
      task.writes ok = false) : Calm s t := by
  cases a with
  | start | motionDetected | setMotionRecording enabled | reboot autoStart => cases quiet
  | suspend =>
    obtain ⟨process, -, rfl⟩ := Option.map_eq_some_iff.mp taken
    exact ⟨rfl, rfl, rfl⟩
  | stop | report cego | motionStopTimer | manualStopTimer | restartTimer | diskGuard
  | setEnabled enabled => grind [step, Calm, Manager.await, Manager.change]
  | stopAll | shutdown => grind [step, stopAll, Calm, Manager.await]
  | die process => grind [step, Calm, Manager.change, finalizeRecordingState_calm]
  | resume index ok =>
    obtain ⟨task, found, goes⟩ := Option.bind_eq_some_iff.mp taken
    have calm := resume_calm goes (silent index ok rfl task found)
    exact ⟨calm.final, calm.returned, calm.flag⟩

theorem Final.stopped (final : Final s) : Stopped s := by
  intro returned
  obtain ⟨wrote, ended⟩ := final.ended returned
  exact ⟨ended, final.flag wrote⟩

theorem Frame.ended (frame : Frame s t) (ended : ∀ p ∈ s.processes, p.alive = false) :
    ∀ p ∈ t.processes, p.alive = false := by
  intro p member
  by_contra alive
  obtain ⟨q, inS, -, running⟩ := frame.alive p member (Bool.not_eq_false _ ▸ alive)
  rw [ended q inS] at running
  cases running

theorem Frame.forgotten (frame : Frame s t)
    (finalized : ∀ p ∈ s.processes, p.finalized = true → s.active ≠ some p.id) :
    ∀ p ∈ t.processes, p.finalized = true → t.active ≠ some p.id := by
  intro p member done
  obtain ⟨q, inS, same, already⟩ := frame.finalized p member done
  rw [frame.active, ← same]
  exact finalized q inS already

/-- A start that goes on finds that no stop has written the row. -/
theorem Final.open_ (final : Final s) {task : Task} (member : task ∈ s.tasks)
    (starting : task.starting = true) : s.final = false := by
  by_contra wrote
  rw [final.silent (Bool.not_eq_false _ ▸ wrote) task member] at starting
  cases starting

theorem Final.free (final : Final s) (open_ : s.final = false) :
    s.returned = false ∧ ∀ task ∈ s.tasks, task.stopping = none := by
  constructor
  · by_contra returned
    have wrote := (final.ended (Bool.not_eq_false _ ▸ returned)).1
    rw [open_] at wrote
    cases wrote
  · intro task member
    cases stops : task.stopping with
    | none => rfl
    | some target =>
      have wrote := (final.waiting task member target stops).1
      rw [open_] at wrote
      cases wrote

/-- Behind a stop no start is born: what the manager asks for itself it asks for where the row says
that a recording is wanted. -/
theorem born_silent (final : Final s) (inTime : InTime s a) (wrote : s.final = true)
    (asks : a.asks = false) {task : Task}
    (born : task.born s a t) : task.starting = false := by
  have unwanted := final.flag wrote
  have under {task : Task} (member : task ∈ s.tasks) : task.starting = false :=
    final.silent wrote task member
  cases task with
  | check caller =>
    cases born with
    | start => cases asks
    | motion index found => exact absurd (under (List.mem_of_getElem? found)) (by decide)
    | failsafe index found =>
      have open_ := (inTime.2.2 (index, true) rfl _ found).2 rfl rfl
      rw [wrote] at open_
      cases open_
    | restart index found enabled flag | diskGuard index found enabled continuous flag
    | boot enabled continuous flag =>
      rw [unwanted] at flag
      cases flag
  | probe caller seen => exact absurd (under born.1) (by simp [Task.starting])
  | confirm caller process =>
    rcases born.1 with looks | ⟨seen, probes⟩
    · exact absurd (under looks) (by simp [Task.starting])
    · exact absurd (under probes) (by simp [Task.starting])
  | motionLookup =>
    rw [show a = .motionDetected from born] at asks
    cases asks
  | rollback process | stop caller | cancel | wait process | finish process | suspend process
  | finalize process abnormal | failsafeLookup cego | quietLookup | restartLookup
  | diskGuardLookup => rfl

theorem still_waiting {id : Nat} (active : t.active = s.active ∨ t.active = none)
    (waits : s.active = some id ∨ s.active = none) : t.active = some id ∨ t.active = none := by
  rcases active with same | cleared
  · rw [same]
    exact waits
  · exact Or.inr cleared

/-- A stop that waits is an old one, or it waits for what it has just found in `active`. -/
theorem born_waiting (final : Final s) (active : t.active = s.active ∨ t.active = none)
    (wrote : ∀ index caller, a = .resume index true → s.tasks[index]? ≠ some (.stop caller))
    {task : Task} (born : task.born s a t) (target : Option Nat)
    (stops : task.stopping = some target) :
    s.final = true ∧ ∀ id, target = some id → t.active = some id ∨ t.active = none := by
  cases task with
  | cancel =>
    obtain ⟨index, caller, resumes, found⟩ := born
    exact absurd found (wrote index caller resumes)
  | wait process =>
    cases stops
    refine ⟨(final.waiting .cancel born.1 none rfl).1, ?_⟩
    rintro id ⟨⟩
    exact still_waiting active (Or.inl born.2)
  | finish process =>
    cases stops
    obtain ⟨wrote, waits⟩ := final.waiting (.wait process) born (some process) rfl
    exact ⟨wrote, fun id same => still_waiting active (waits id same)⟩
  | check caller | probe caller seen | confirm caller process | rollback process | stop caller
  | suspend process | finalize process abnormal | motionLookup | failsafeLookup cego | quietLookup
  | restartLookup | diskGuardLookup => cases stops

/-- While no stop has written the row, nothing is owed. -/
theorem open_final (sound : Sound t) (open_ : t.final = false) (unreturned : t.returned = false)
    (tasks : ∀ task ∈ t.tasks, task.stopping = none)
    (finalized : ∀ p ∈ t.processes, p.finalized = true → t.active ≠ some p.id) : Final t := by
  refine ⟨sound, ?_, ?_, ?_, ?_, finalized⟩
  · rw [open_]
    nofun
  · rw [open_]
    nofun
  · rw [unreturned]
    nofun
  · intro task member target stops
    rw [tasks task member] at stops
    cases stops

/-- A step that asks for nothing, and with which no stop gets on. -/
theorem calm_final (final : Final s) (inTime : InTime s a) (taken : step s a = some t)
    (asks : a.asks = false)
    (wrote : ∀ index caller, a = .resume index true → s.tasks[index]? ≠ some (.stop caller))
    (same : t.final = s.final ∧ t.returned = s.returned)
    (flag : t.recordingEnabled = s.recordingEnabled ∨ t.recordingEnabled = false)
    (active : t.active = s.active ∨ t.active = none)
    (ended : (∀ p ∈ s.processes, p.alive = false) → ∀ p ∈ t.processes, p.alive = false)
    (finalized : ∀ p ∈ t.processes, p.finalized = true → t.active ≠ some p.id) : Final t := by
  have grown := step_grown taken
  refine ⟨step_sound s a t inTime.1 final.sound taken, ?_, ?_, ?_, ?_, finalized⟩
  · intro stopped
    rw [same.1] at stopped
    rcases flag with kept | lowered
    · rw [kept]
      exact final.flag stopped
    · exact lowered
  · intro stopped task member
    rw [same.1] at stopped
    rcases grown task member with old | born
    · exact final.silent stopped task old
    · exact born_silent final inTime stopped asks born
  · intro returned
    rw [same.2] at returned
    obtain ⟨stopped, dead⟩ := final.ended returned
    rw [same.1]
    exact ⟨stopped, ended dead⟩
  · intro task member target stops
    rw [same.1]
    rcases grown task member with old | born
    · obtain ⟨stopped, waits⟩ := final.waiting task old target stops
      exact ⟨stopped, fun id here => still_waiting active (waits id here)⟩
    · exact born_waiting final active wrote born target stops

theorem spawn_final {index : Nat} {caller : Caller} {seen : Nat} (final : Final s)
    (found : s.tasks[index]? = some (.probe caller seen))
    (sound : Sound (spawn (s.drop index) caller)) : Final (spawn (s.drop index) caller) := by
  have open_ := final.open_ (List.mem_of_getElem? found) rfl
  obtain ⟨unreturned, free⟩ := final.free open_
  refine open_final sound open_ unreturned ?_ ?_
  · intro task member
    rcases mem_drop_await member with old | rfl
    · exact free task old
    · rfl
  · intro p member done same
    have named : s.spawned = p.id := Option.some.inj same
    rcases mem_append.mp member with old | new
    · have below := final.sound.numbered.below p old
      omega
    · rw [mem_singleton.mp new] at done
      cases done

/-- What is forgotten is no longer in `active`. -/
theorem forget_forgotten (process : Nat)
    (finalized : ∀ p ∈ s.processes, p.finalized = true → s.active ≠ some p.id) :
    ∀ p ∈ (forget s process).processes, p.finalized = true →
      (forget s process).active ≠ some p.id := by
  unfold forget
  split
  · exact fun _ _ _ => nofun
  · rename_i other
    intro p member done
    obtain ⟨q, inS, rfl⟩ := mem_map.mp member
    split at done
    · rename_i here
      rw [if_pos here, show q.finish.id = q.id from rfl, here]
      exact other
    · rename_i another
      rw [if_neg another]
      exact finalized q inS done

theorem finalize_final {index process : Nat} {abnormal ok : Bool} (final : Final s)
    (found : s.tasks[index]? = some (.finalize process abnormal))
    (inTime : InTime s (.resume index ok))
    (taken : step s (.resume index ok) = some (finalized (s.drop index) process abnormal ok)) :
    Final (finalized (s.drop index) process abnormal ok) := by
  have frame := finalized_frame (s.drop index) process abnormal ok
  obtain ⟨-, flag, wrote, returned⟩ :=
    finalized_same (s := s.drop index) process abnormal ok
  have fade := forget_fade (s.drop index) process
  apply calm_final final inTime taken rfl ?_ ⟨wrote, returned⟩ (Or.inl flag) ?_ ?_ ?_
  · intro other caller same
    cases same
    rw [found]
    nofun
  · rw [frame.active]
    unfold forget
    split
    · exact Or.inr rfl
    · exact Or.inl rfl
  · intro dead p member
    by_contra alive
    obtain ⟨q, between, -, running⟩ := frame.alive p member (Bool.not_eq_false _ ▸ alive)
    obtain ⟨r, inS, -, still⟩ := fade.2.2 q between running
    rw [dead r inS] at still
    cases still
  · exact frame.forgotten (forget_forgotten process final.finalized)

theorem reboot_final (final : Final s) (autoStart : Bool)
    (inTime : InTime s (.reboot autoStart)) : Final (reboot s autoStart) := by
  have parts : (reboot s autoStart).active = none ∧ (reboot s autoStart).final = s.final ∧
      (reboot s autoStart).returned = s.returned ∧
      (reboot s autoStart).recordingEnabled = s.recordingEnabled ∧
      (reboot s autoStart).processes = s.processes.map Process.killed := by
    unfold reboot
    split
    all_goals exact ⟨rfl, rfl, rfl, rfl, rfl⟩
  obtain ⟨active, wrote, returned, flag, processes⟩ := parts
  apply calm_final final inTime rfl rfl (by simp) ⟨wrote, returned⟩ (Or.inl flag)
    (Or.inr active)
  · rw [processes]
    intro _ p member
    obtain ⟨q, -, rfl⟩ := mem_map.mp member
    rfl
  · rw [active]
    exact fun _ _ _ => nofun

/-- The row of a stop is written, when no start is under way. -/
theorem stop_final {index : Nat} {caller : Caller} (final : Final s)
    (found : s.tasks[index]? = some (.stop caller)) (inTime : InTime s (.resume index true))
    (sound : Sound ({ (s.drop index).write caller false with final := true }.await .cancel)) :
    Final ({ (s.drop index).write caller false with final := true }.await .cancel) := by
  refine ⟨sound, fun _ => rfl, ?_, ?_, ?_, final.finalized⟩
  · intro _ task member
    rcases mem_drop_await member with old | rfl
    · exact (inTime.2.2 (index, true) rfl _ found).1 rfl rfl task old
    · rfl
  · exact fun returned => ⟨rfl, (final.ended returned).2⟩
  · intro task member target stops
    refine ⟨rfl, ?_⟩
    rcases mem_drop_await member with old | rfl
    · exact (final.waiting task old target stops).2
    · cases stops
      nofun

/-- A stop that has written the row finds the recorder, or returns. -/
theorem cancel_final {index : Nat} (final : Final s) (found : s.tasks[index]? = some .cancel)
    (sound : Sound (stopActive (s.drop index))) : Final (stopActive (s.drop index)) := by
  have wrote := (final.waiting .cancel (List.mem_of_getElem? found) none rfl).1
  have frame := stopActive_frame (s.drop index)
  have same : (stopActive (s.drop index)).final = s.final ∧
      (stopActive (s.drop index)).recordingEnabled = s.recordingEnabled := by
    unfold stopActive
    split
    all_goals exact ⟨rfl, rfl⟩
  have waits : ∀ task ∈ (stopActive (s.drop index)).tasks, task ∈ s.tasks ∨
      ∃ process, task = .wait process ∧ s.active = some process := by
    unfold stopActive
    split
    · exact fun task member => Or.inl (mem_of_mem_eraseIdx member)
    · rename_i process active
      intro task member
      exact (mem_drop_await member).imp_right fun new => ⟨process, new, active⟩
  refine ⟨sound, ?_, ?_, ?_, ?_, frame.forgotten final.finalized⟩
  · rw [same.1, same.2]
    exact final.flag
  · intro _ task member
    rcases waits task member with old | ⟨process, rfl, -⟩
    · exact final.silent wrote task old
    · rfl
  · intro returned
    rw [same.1]
    refine ⟨wrote, ?_⟩
    apply frame.ended
    unfold stopActive at returned
    split at returned
    · rename_i none_
      intro p member
      by_contra alive
      have active := final.sound.registered p member (Bool.not_eq_false _ ▸ alive)
      rw [show s.active = none from none_] at active
      cases active
    · exact (final.ended returned).2
  · intro task member target stops
    rw [same.1, frame.active]
    refine ⟨wrote, ?_⟩
    rcases waits task member with old | ⟨process, rfl, active⟩
    · exact (final.waiting task old target stops).2
    · cases stops
      rintro id ⟨⟩
      exact Or.inl active

theorem finish_final {index process : Nat} (final : Final s)
    (found : s.tasks[index]? = some (.finish process))
    (done : (s.drop index).any process Process.finalized = true)
    (sound : Sound { s.drop index with returned := true }) :
    Final { s.drop index with returned := true } := by
  obtain ⟨wrote, waits⟩ :=
    final.waiting (.finish process) (List.mem_of_getElem? found) (some process) rfl
  have gone : s.active = none := by
    rcases waits process rfl with still | none
    · simp only [Manager.any, any_eq_true, Bool.and_eq_true, decide_eq_true_eq] at done
      obtain ⟨p, member, rfl, forgotten⟩ := done
      exact absurd still (final.finalized p member forgotten)
    · exact none
  refine ⟨sound, final.flag, ?_, ?_, ?_, final.finalized⟩
  · exact fun _ task member => final.silent wrote task (mem_of_mem_eraseIdx member)
  · intro _
    refine ⟨wrote, ?_⟩
    intro p member
    by_contra alive
    have active := final.sound.registered p member (Bool.not_eq_false _ ▸ alive)
    rw [gone] at active
    cases active
  · exact fun task member => final.waiting task (mem_of_mem_eraseIdx member)

theorem confirm_final {index : Nat} {caller : Caller} {process : Option Nat} (final : Final s)
    (found : s.tasks[index]? = some (.confirm caller process))
    (sound : Sound (started ((s.drop index).write caller true) caller)) :
    Final (started ((s.drop index).write caller true) caller) := by
  have open_ := final.open_ (List.mem_of_getElem? found) rfl
  obtain ⟨unreturned, free⟩ := final.free open_
  have frame := started_frame (s.drop index) caller
  have same : (started ((s.drop index).write caller true) caller).final = s.final ∧
      (started ((s.drop index).write caller true) caller).returned = s.returned ∧
      (started ((s.drop index).write caller true) caller).tasks = (s.drop index).tasks := by
    cases caller <;> exact ⟨rfl, rfl, rfl⟩
  obtain ⟨wrote, returned, tasks⟩ := same
  refine open_final sound (wrote.trans open_) (returned.trans unreturned) ?_
    (frame.forgotten final.finalized)
  rw [tasks]
  exact fun task member => free task (mem_of_mem_eraseIdx member)

theorem resume_final {index : Nat} {ok : Bool} {task : Task} (final : Final s)
    (inTime : InTime s (.resume index ok)) (found : s.tasks[index]? = some task)
    (goes : resume (s.drop index) task ok = some t) (taken : step s (.resume index ok) = some t) :
    Final t := by
  have sound := step_sound s _ t inTime.1 final.sound taken
  have calmly : task.writes ok = false → (∀ caller seen, task = .probe caller seen → ok = false) →
      (∀ process abnormal, task ≠ .finalize process abnormal) → Final t := by
    intro silent idle running
    have frame : Frame s t := by
      have dropped : Frame s (s.drop index) := .beside rfl rfl rfl
      exact dropped.trans (resume_frame goes idle running)
    have calm := resume_calm goes silent
    apply calm_final final inTime taken rfl ?_ ⟨calm.final, calm.returned⟩
      (Or.inl calm.flag) (Or.inl frame.active) frame.ended (frame.forgotten final.finalized)
    intro other caller same
    cases same
    rw [found]
    rintro ⟨⟩
    cases silent
  cases task with
  | probe caller seen =>
    cases ok with
    | false => exact calmly rfl (by simp) (by simp)
    | true =>
      cases goes
      exact spawn_final final found sound
  | confirm caller process =>
    cases ok with
    | false => exact calmly rfl (by simp) (by simp)
    | true =>
      cases goes
      exact confirm_final final found sound
  | stop caller =>
    cases ok with
    | false => exact calmly rfl (by simp) (by simp)
    | true =>
      cases goes
      exact stop_final final found inTime sound
  | cancel =>
    cases goes
    exact cancel_final final found sound
  | finish process =>
    rw [resume] at goes
    split at goes
    · rename_i done
      cases goes
      exact finish_final final found done sound
    · cases goes
  | finalize process abnormal =>
    cases goes
    exact finalize_final final found inTime taken
  | check caller | rollback process | wait process | suspend process | motionLookup
  | failsafeLookup cego | quietLookup | restartLookup | diskGuardLookup =>
    exact calmly rfl (by simp) (by simp)

theorem step_final (s : Manager) (a : Event) (t : Manager) (inTime : InTime s a) (final : Final s)
    (taken : step s a = some t) : Final t := by
  have calmly : a.speaks = false → (∀ index ok, a ≠ .resume index ok) → Final t := by
    intro quiet here
    have asks : a.asks = false ∧ ∀ autoStart, a ≠ .reboot autoStart := by
      refine ⟨?_, ?_⟩
      · cases a <;> first | rfl | cases quiet
      · rintro autoStart rfl
        cases quiet
    have frame := step_frame taken (fun index ok same => absurd same (here index ok)) asks.2
    have calm := step_calm taken quiet fun index ok same => absurd same (here index ok)
    exact calm_final final inTime taken asks.1
      (fun index _ same => absurd same (here index true)) ⟨calm.final, calm.returned⟩
      (Or.inl calm.flag) (Or.inl frame.active) frame.ended (frame.forgotten final.finalized)
  cases a with
  | start | motionDetected =>
    have sound := step_sound s _ t inTime.1 final.sound taken
    cases taken
    refine open_final sound rfl rfl ?_ final.finalized
    intro task member
    rcases mem_await member with old | rfl
    · exact inTime.2.1 rfl task old
    · rfl
  | setMotionRecording enabled =>
    have frame := step_frame taken (by simp) (by simp)
    apply calm_final final inTime taken rfl (by simp) ?_ ?_ (Or.inl frame.active) frame.ended
      (frame.forgotten final.finalized)
    · cases taken
      exact ⟨rfl, rfl⟩
    · cases taken
      exact Or.inr rfl
  | reboot autoStart =>
    cases taken
    exact reboot_final final autoStart inTime
  | resume index ok =>
    have goes := taken
    obtain ⟨task, found, goes⟩ := Option.bind_eq_some_iff.mp goes
    exact resume_final final inTime found goes taken
  | stop | report cego | motionStopTimer | manualStopTimer | restartTimer | suspend | diskGuard
  | stopAll | shutdown | setEnabled enabled | die process => exact calmly rfl (by simp)

theorem booted_final (booted : Booted s) : Final s := by
  refine open_final (booted_sound booted) booted.open_ booted.unreturned ?_ ?_
  · rw [booted.tasks]
    exact fun _ => (not_mem_nil).elim
  · rw [booted.processes]
    exact fun _ => (not_mem_nil).elim

instance (s : Manager) (ok : Bool) (task : Task) : Decidable (task.timely s ok) :=
  inferInstanceAs (Decidable (_ ∧ _))

instance (s : Manager) (a : Event) : Decidable (InTime s a) :=
  inferInstanceAs (Decidable (_ ∧ _ ∧ ∀ call ∈ a.resumed, ∀ task ∈ s.tasks[call.1]?, _))

/-- The recorder dies, the operator stops it while the restart waits for the row, and the manager is
started again. -/
def stoppedRestart : List Event :=
  [.start, .resume 0 true, .resume 0 true, .resume 0 true, .die 0, .resume 0 true, .restartTimer,
    .stop, .resume 1 true, .resume 0 true, .resume 0 true, .reboot true]

/-- The operator starts a recording and stops it while the start still probes the camera. -/
def overtakenStart : List Event :=
  [.start, .resume 0 true, .stop, .resume 1 true, .resume 1 true, .resume 0 true, .resume 0 true]

end DracVms.Recorder
