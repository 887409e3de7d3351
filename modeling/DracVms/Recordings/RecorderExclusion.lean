import DracVms.Recordings.Recorder
import DracVms.Library.Runs

namespace DracVms.Recorder

open List KeyedList

/-- At most one recorder runs; it is the registered one, and the one a stop waits for. -/
structure Exclusive (s : Manager) : Prop where
  one : ∀ p ∈ s.processes, ∀ q ∈ s.processes, p.alive = true → q.alive = true → p = q
  registered : ∀ p ∈ s.processes, p.alive = true → s.active = some p.id
  stopped : ∀ p ∈ s.processes, p.alive = true → .wait p.id ∈ (stopActive s).tasks

/-- The process of the manager has just started. -/
structure Booted (s : Manager) : Prop where
  active : s.active = none
  processes : s.processes = []
  tasks : s.tasks = []
  open_ : s.final = false
  unreturned : s.returned = false

/-- The recorder whose end a call waits for. -/
def Task.ending : Task → Option Nat
  | .rollback process => some process
  | .wait process => some process
  | .suspend process => some process
  | _ => none

/-- How many recorders there had been when a start looked into `active`. -/
def Task.look : Task → Option Nat
  | .probe _ seen => some seen
  | _ => none

/-- No other start has spawned a recorder since this one looked into `active`, and the wait for a
recorder that runs is not given up. -/
def Task.orderly (s : Manager) (ok : Bool) (task : Task) : Prop :=
  (∀ seen ∈ task.look, ok = true → s.spawned = seen) ∧
    ∀ id ∈ task.ending, ok = false → s.any id Process.alive = false

/-- The call that goes on, and with what answer. -/
def Event.resumed : Event → Option (Nat × Bool)
  | .resume index ok => some (index, ok)
  | _ => none

def Orderly (s : Manager) (a : Event) : Prop :=
  ∀ call ∈ a.resumed, ∀ task ∈ s.tasks[call.1]?, task.orderly s call.2

structure Numbered (s : Manager) : Prop where
  distinct : (s.processes.map Process.id).Nodup
  below : ∀ p ∈ s.processes, p.id < s.spawned
  active : ∀ id, s.active = some id → id < s.spawned

def Registered (s : Manager) : Prop := ∀ p ∈ s.processes, p.alive = true → s.active = some p.id

variable (s : Manager)

theorem Registered.exclusive {s : Manager} (registered : Registered s) (numbered : Numbered s) :
    Exclusive s := by
  refine ⟨?_, registered, ?_⟩
  · intro p inS q alsoInS first second
    have same : p.id = q.id := by
      have both := (registered p inS first).symm.trans (registered q alsoInS second)
      exact Option.some.inj both
    exact eq_of_key numbered.distinct inS alsoInS same
  · intro p inS alive
    rw [stopActive, registered p inS alive]
    exact mem_append_right _ (mem_singleton_self _)

/-- A step that spawns nothing and leaves `active` alone: processes only end. -/
structure Fade (s t : Manager) : Prop where
  active : t.active = s.active
  spawned : t.spawned = s.spawned
  ids : t.processes.map Process.id = s.processes.map Process.id
  alive : ∀ p ∈ t.processes, p.alive = true → ∃ q ∈ s.processes, q.id = p.id ∧ q.alive = true

/-- And none of them is forgotten. -/
structure Frame (s t : Manager) : Prop extends Fade s t where
  finalized : ∀ p ∈ t.processes, p.finalized = true →
    ∃ q ∈ s.processes, q.id = p.id ∧ q.finalized = true

theorem Fade.numbered {s t : Manager} (fade : Fade s t) (numbered : Numbered s) : Numbered t := by
  refine ⟨?_, ?_, ?_⟩
  · rw [fade.ids]
    exact numbered.distinct
  · intro p member
    have inIds : p.id ∈ s.processes.map Process.id := by
      rw [← fade.ids]
      exact mem_map_of_mem member
    obtain ⟨q, inS, same⟩ := mem_map.mp inIds
    rw [fade.spawned, ← same]
    exact numbered.below q inS
  · rw [fade.active, fade.spawned]
    exact numbered.active

theorem Fade.registered {s t : Manager} (fade : Fade s t) (registered : Registered s) :
    Registered t := by
  intro p member alive
  obtain ⟨q, inS, same, already⟩ := fade.alive p member alive
  rw [fade.active, ← same]
  exact registered q inS already

variable {process : Nat}

theorem mem_change {processes : List Process} {change : Process → Process} {kept : Process → Bool}
    (id : ∀ p, (change p).id = p.id) (keeps : ∀ p, kept (change p) = true → kept p = true)
    (p : Process) (member : p ∈ updateAt Process.id processes process change)
    (holds : kept p = true) : ∃ q ∈ processes, q.id = p.id ∧ kept q = true := by
  obtain ⟨q, inS, rfl⟩ := mem_map.mp member
  refine ⟨q, inS, ?_⟩
  split at holds
  · rename_i here
    rw [if_pos here]
    exact ⟨(id q).symm, keeps q holds⟩
  · rename_i other
    rw [if_neg other]
    exact ⟨rfl, holds⟩

theorem Fade.change {s t : Manager} {change : Process → Process} (active : t.active = s.active)
    (spawned : t.spawned = s.spawned)
    (processes : t.processes = updateAt Process.id s.processes process change)
    (id : ∀ p, (change p).id = p.id) (alive : ∀ p, (change p).alive = true → p.alive = true) :
    Fade s t := by
  refine ⟨active, spawned, ?_, ?_⟩
  · rw [processes]
    exact map_updateAt _ _ _ _ _ id
  · rw [processes]
    exact mem_change id alive

theorem Frame.beside {s t : Manager} (active : t.active = s.active)
    (spawned : t.spawned = s.spawned) (processes : t.processes = s.processes) : Frame s t := by
  refine ⟨⟨active, spawned, by rw [processes], ?_⟩, ?_⟩
  · rw [processes]
    exact fun p member alive => ⟨p, member, rfl, alive⟩
  · rw [processes]
    exact fun p member done => ⟨p, member, rfl, done⟩

theorem Frame.change {s t : Manager} {change : Process → Process} (active : t.active = s.active)
    (spawned : t.spawned = s.spawned)
    (processes : t.processes = updateAt Process.id s.processes process change)
    (id : ∀ p, (change p).id = p.id) (alive : ∀ p, (change p).alive = true → p.alive = true)
    (finalized : ∀ p, (change p).finalized = true → p.finalized = true) : Frame s t := by
  refine ⟨.change active spawned processes id alive, ?_⟩
  rw [processes]
  exact mem_change id finalized

theorem Frame.trans {s t u : Manager} (first : Frame s t) (second : Frame t u) : Frame s u := by
  refine ⟨⟨second.active.trans first.active, second.spawned.trans first.spawned,
    second.ids.trans first.ids, ?_⟩, ?_⟩
  · intro p member alive
    obtain ⟨q, inT, same, stillAlive⟩ := second.alive p member alive
    obtain ⟨r, inS, equal, already⟩ := first.alive q inT stillAlive
    exact ⟨r, inS, equal.trans same, already⟩
  · intro p member done
    obtain ⟨q, inT, same, stillDone⟩ := second.finalized p member done
    obtain ⟨r, inS, equal, already⟩ := first.finalized q inT stillDone
    exact ⟨r, inS, equal.trans same, already⟩

variable (process : Nat)

theorem finalizeRecordingState_frame : Frame s (finalizeRecordingState s process) := by
  unfold finalizeRecordingState
  split
  · exact .beside rfl rfl rfl
  · exact .change rfl rfl rfl (fun _ => rfl) (fun _ alive => alive) fun _ done => done

theorem stopActive_frame : Frame s (stopActive s) := by
  unfold stopActive
  split
  · exact .beside rfl rfl rfl
  · exact .change rfl rfl rfl (fun _ => rfl) (fun _ alive => alive) fun _ done => done

theorem started_frame (caller : Caller) : Frame s (started (s.write caller true) caller) := by
  cases caller <;> exact .beside rfl rfl rfl

theorem stopAll_frame : Frame s (stopAll s) := by
  unfold stopAll
  split
  all_goals exact .beside rfl rfl rfl

theorem definirFailsafe_frame (cego : Bool) : Frame s (definirFailsafe s cego) := by
  unfold definirFailsafe
  split
  · exact .beside rfl rfl rfl
  · split
    · split
      all_goals exact .beside rfl rfl rfl
    · exact .beside rfl rfl rfl

/-- A call that goes on spawns a recorder, forgets one, or leaves the processes alone. -/
theorem resume_frame {s t : Manager} {task : Task} {ok : Bool} (taken : resume s task ok = some t)
    (idle : ∀ caller seen, task = .probe caller seen → ok = false)
    (running : ∀ process abnormal, task ≠ .finalize process abnormal) : Frame s t := by
  cases task with
  | check caller =>
    cases ok with
    | false =>
      cases taken
      exact .beside rfl rfl rfl
    | true =>
      cases taken
      split
      · exact .beside rfl rfl rfl
      · split
        all_goals exact .beside rfl rfl rfl
  | probe caller seen =>
    rw [idle caller seen rfl] at taken
    cases taken
    exact .beside rfl rfl rfl
  | confirm caller process =>
    cases ok with
    | true =>
      cases taken
      exact started_frame s caller
    | false =>
      cases process with
      | none =>
        cases taken
        exact .beside rfl rfl rfl
      | some process =>
        cases taken
        exact .change rfl rfl rfl (fun _ => rfl) (fun _ alive => alive) fun _ done => done
  | rollback process =>
    rw [resume] at taken
    split at taken
    · cases taken
    · cases taken
      exact finalizeRecordingState_frame s process
  | stop caller =>
    cases ok with
    | true | false =>
      cases taken
      exact .beside rfl rfl rfl
  | cancel =>
    cases taken
    exact stopActive_frame s
  | wait process =>
    rw [resume] at taken
    split at taken
    · cases taken
    · cases taken
      exact (finalizeRecordingState_frame s process).trans (.beside rfl rfl rfl)
  | finish process =>
    rw [resume] at taken
    split at taken
    · cases taken
      exact .beside rfl rfl rfl
    · cases taken
  | suspend process =>
    rw [resume] at taken
    split at taken
    · cases taken
    · cases taken
      exact finalizeRecordingState_frame s process
  | finalize process abnormal => exact absurd rfl (running process abnormal)
  | motionLookup =>
    cases taken
    split
    · exact .beside rfl rfl rfl
    · split
      all_goals exact .beside rfl rfl rfl
  | failsafeLookup cego =>
    cases taken
    split
    · exact definirFailsafe_frame s cego
    · exact .beside rfl rfl rfl
  | quietLookup | restartLookup | diskGuardLookup =>
    cases taken
    split
    all_goals exact .beside rfl rfl rfl

theorem any_alive :
    s.any process Process.alive = false ↔ ∀ p ∈ s.processes, p.id = process → p.alive = false := by
  simp [Manager.any]

theorem spawn_registered (numbered : Numbered s) (caller : Caller) : Numbered (spawn s caller) ∧
      ((∀ p ∈ s.processes, p.alive = false) → Registered (spawn s caller)) := by
  have fresh : ∀ p ∈ s.processes, p.id ≠ s.spawned := fun p member =>
    Nat.ne_of_lt (numbered.below p member)
  refine ⟨⟨?_, ?_, ?_⟩, ?_⟩
  · show ((s.processes ++ [_]).map Process.id).Nodup
    rw [map_append]
    apply numbered.distinct.append (nodup_singleton _)
    intro id first second
    obtain ⟨p, member, rfl⟩ := mem_map.mp first
    exact fresh p member (mem_singleton.mp second)
  · intro p member
    show p.id < s.spawned + 1
    rcases mem_append.mp member with old | new
    · have below := numbered.below p old
      omega
    · rw [mem_singleton.mp new]
      exact Nat.lt_succ_self _
  · rintro id ⟨⟩
    exact Nat.lt_succ_self _
  · intro ended p member alive
    rcases mem_append.mp member with old | new
    · rw [ended p old] at alive
      cases alive
    · rw [mem_singleton.mp new]
      rfl

theorem scheduleRestart_same (allowed : Bool) :
    (scheduleRestart s process allowed).active = s.active ∧
      (scheduleRestart s process allowed).spawned = s.spawned ∧
      (scheduleRestart s process allowed).processes = s.processes := by
  unfold scheduleRestart
  split
  all_goals exact ⟨rfl, rfl, rfl⟩

theorem finish_fade : Fade s (s.change process Process.finish) :=
  .change rfl rfl rfl (fun _ => rfl) fun _ alive => alive

theorem forget_numbered (numbered : Numbered s) : Numbered (forget s process) := by
  have done := (finish_fade s process).numbered numbered
  unfold forget
  split
  · exact ⟨done.distinct, done.below, nofun⟩
  · exact done

theorem forget_fade : (forget s process).spawned = s.spawned ∧
    (s.active = none → (forget s process).active = none) ∧
    ∀ p ∈ (forget s process).processes, p.alive = true →
      ∃ q ∈ s.processes, q.id = p.id ∧ q.alive = true := by
  have fade := finish_fade s process
  unfold forget
  split
  · exact ⟨rfl, fun _ => rfl, fade.alive⟩
  · exact ⟨rfl, fun inactive => inactive, fade.alive⟩

theorem forget_registered (registered : Registered s)
    (ended : s.any process Process.alive = false) : Registered (forget s process) := by
  have fade := finish_fade s process
  rw [any_alive] at ended
  unfold forget
  split
  · rename_i here
    intro p member alive
    obtain ⟨q, inS, same, running⟩ := fade.alive p member alive
    have active := registered q inS running
    rw [here] at active
    rw [ended q inS (Option.some.inj active).symm] at running
    cases running
  · exact fade.registered registered

theorem finalized_frame (abnormal allowed : Bool) :
    Frame (forget s process) (finalized s process abnormal allowed) := by
  cases abnormal with
  | false => exact .beside rfl rfl rfl
  | true =>
    obtain ⟨active, spawned, processes⟩ := scheduleRestart_same (forget s process) process allowed
    exact .beside active spawned processes

theorem reboot_frame (autoStart : Bool) (numbered : Numbered s) :
    Numbered (reboot s autoStart) ∧ Registered (reboot s autoStart) := by
  have parts : (reboot s autoStart).active = none ∧ (reboot s autoStart).spawned = s.spawned ∧
      (reboot s autoStart).processes = s.processes.map Process.killed := by
    unfold reboot
    split
    all_goals exact ⟨rfl, rfl, rfl⟩
  obtain ⟨active, spawned, processes⟩ := parts
  refine ⟨⟨?_, ?_, ?_⟩, ?_⟩
  · rw [processes, map_map]
    exact numbered.distinct
  · rw [processes, spawned]
    intro p member
    obtain ⟨q, inS, rfl⟩ := mem_map.mp member
    exact numbered.below q inS
  · rw [active]
    nofun
  · rw [Registered, processes]
    intro p member alive
    obtain ⟨q, inS, rfl⟩ := mem_map.mp member
    cases alive

/-- Every step but these leaves the processes alone, or lets them end. -/
theorem step_frame {s t : Manager} {a : Event} (taken : step s a = some t)
    (spawns : ∀ index ok, a = .resume index ok → ∀ task, s.tasks[index]? = some task →
      (∀ caller seen, task = .probe caller seen → ok = false) ∧
        ∀ process abnormal, task ≠ .finalize process abnormal)
    (up : ∀ autoStart, a ≠ .reboot autoStart) : Frame s t := by
  cases a with
  | start | stop | motionDetected | setMotionRecording enabled | setEnabled enabled =>
    cases taken
    exact .beside rfl rfl rfl
  | report cego =>
    cases taken
    split
    all_goals exact .beside rfl rfl rfl
  | manualStopTimer =>
    rw [step] at taken
    split at taken
    · cases taken
      exact .beside rfl rfl rfl
    · cases taken
  | motionStopTimer | restartTimer =>
    rw [step] at taken
    split at taken
    · cases taken
      split
      all_goals exact .beside rfl rfl rfl
    · cases taken
  | suspend =>
    obtain ⟨process, -, rfl⟩ := Option.map_eq_some_iff.mp taken
    exact .change rfl rfl rfl (fun _ => rfl) (fun _ alive => alive) fun _ done => done
  | diskGuard =>
    rw [step] at taken
    split at taken
    · cases taken
      exact .beside rfl rfl rfl
    · cases taken
  | stopAll =>
    cases taken
    exact stopAll_frame s
  | shutdown =>
    cases taken
    have shutting : Frame s
        { s with
          shuttingDown := true
          restartTimer := false
          motionStopTimer := false
          manualStopTimer := false } :=
      .beside rfl rfl rfl
    exact shutting.trans (stopAll_frame _)
  | die process =>
    rw [step] at taken
    split at taken
    · cases taken
      apply Frame.trans _ (finalizeRecordingState_frame _ process)
      exact .change rfl rfl rfl (fun _ => rfl) nofun fun _ done => done
    · cases taken
  | resume index ok =>
    obtain ⟨task, found, goes⟩ := Option.bind_eq_some_iff.mp taken
    obtain ⟨idle, running⟩ := spawns index ok rfl task found
    have dropped : Frame s (s.drop index) := .beside rfl rfl rfl
    exact dropped.trans (resume_frame goes idle running)
  | reboot autoStart => exact absurd rfl (up autoStart)

/-! What one step asks for, and which calls are under way after it. -/

/-- The step at which a `start` or a `stop` is asked for. What the manager asks for itself after a
crash, a full disk or a boot, it asks for where it reads that a recording is wanted. -/
inductive Asks (s : Manager) : Event → Caller → Bool → Prop where
  | start : Asks s .start .operator true
  | stop : Asks s .stop .operator false
  | manualTimer : Asks s .manualStopTimer .manualTimer false
  | motion (index : Nat) : s.tasks[index]? = some .motionLookup → s.enabled = true →
      s.mode = .armed → s.active = none → Asks s (.resume index true) .motion true
  | failsafe (index : Nat) : s.tasks[index]? = some (.failsafeLookup true) → s.enabled = true →
      s.mode = .armed → s.active = none → Asks s (.resume index true) .failsafe true
  | quiet (index : Nat) : s.tasks[index]? = some .quietLookup → s.mode = .armed →
      s.recordingEnabled = true → Asks s (.resume index true) .quiet false
  | restart (index : Nat) : s.tasks[index]? = some .restartLookup → s.enabled = true →
      s.recordingEnabled = true → Asks s (.resume index true) .restart true
  | diskGuard (index : Nat) : s.tasks[index]? = some .diskGuardLookup → s.enabled = true →
      s.mode = .continuous → s.recordingEnabled = true →
      Asks s (.resume index true) .diskGuard true
  | boot : s.enabled = true → s.mode = .continuous → s.recordingEnabled = true →
      Asks s (.reboot true) .boot true
  | stopAll : s.active.isSome = true → Asks s .stopAll .stopAll false
  | shutdown : s.active.isSome = true → Asks s .shutdown .stopAll false

/-- The process has ended, as far as the call that waited for it knows. -/
inductive Ended (s : Manager) : Event → Nat → Prop where
  | died (p : Process) : p ∈ s.processes → Ended s (.die p.id) p.id
  | waited (index : Nat) (ok : Bool) (task : Task) (process : Nat) :
      s.tasks[index]? = some task → task.ending = some process →
      (ok = true → s.any process Process.alive = false) → Ended s (.resume index ok) process

/-- Why a call is under way after a step that was not before it. -/
def Task.born (s : Manager) (a : Event) (t : Manager) : Task → Prop
  | .check caller => Asks s a caller true
  | .probe caller seen => .check caller ∈ s.tasks ∧ s.active = none ∧ seen = s.spawned
  | .confirm caller process =>
    (.check caller ∈ s.tasks ∨ ∃ seen, .probe caller seen ∈ s.tasks) ∧
      ∀ id, process = some id → id < t.spawned
  | .rollback process => ∃ caller, .confirm caller (some process) ∈ s.tasks
  | .stop caller => Asks s a caller false
  | .cancel => ∃ index caller, a = .resume index true ∧ s.tasks[index]? = some (.stop caller)
  | .wait process => .cancel ∈ s.tasks ∧ s.active = some process
  | .finish process => .wait process ∈ s.tasks
  | .suspend process => s.active = some process
  | .finalize process _ => Ended s a process
  | .motionLookup => a = .motionDetected
  | _ => True

variable {s} {t : Manager} {a : Event}

theorem mem_await {task other : Task} (member : other ∈ (s.await task).tasks) :
    other ∈ s.tasks ∨ other = task := by
  rcases mem_append.mp member with old | new
  · exact Or.inl old
  · exact Or.inr (mem_singleton.mp new)

/-- The calls under way after a step are old ones, or born in it. -/
def Grown (s : Manager) (a : Event) (t : Manager) : Prop :=
  ∀ task ∈ t.tasks, task ∈ s.tasks ∨ task.born s a t

theorem Grown.beside (tasks : ∀ task ∈ t.tasks, task ∈ s.tasks) : Grown s a t :=
  fun task member => Or.inl (tasks task member)

theorem Grown.awaits (new : Task) (born : new.born s a t)
    (tasks : ∀ task ∈ t.tasks, task ∈ s.tasks ∨ task = new) : Grown s a t := by
  intro task member
  rcases tasks task member with old | rfl
  · exact Or.inl old
  · exact Or.inr born

theorem mem_drop_await {index : Nat} {new task : Task}
    (member : task ∈ ((s.drop index).await new).tasks) : task ∈ s.tasks ∨ task = new := by
  rcases mem_await member with old | same
  · exact Or.inl (mem_of_mem_eraseIdx old)
  · exact Or.inr same

theorem finalizeRecordingState_tasks (task : Task)
    (member : task ∈ (finalizeRecordingState s process).tasks) :
    task ∈ s.tasks ∨ ∃ abnormal, task = .finalize process abnormal := by
  unfold finalizeRecordingState at member
  split at member
  · exact Or.inl member
  · exact (mem_await member).imp_right fun new => ⟨_, new⟩

theorem finalized_same (abnormal allowed : Bool) :
    (finalized s process abnormal allowed).tasks = s.tasks ∧
      (finalized s process abnormal allowed).recordingEnabled = s.recordingEnabled ∧
      (finalized s process abnormal allowed).final = s.final ∧
      (finalized s process abnormal allowed).returned = s.returned := by
  have forgets : (forget s process).tasks = s.tasks ∧
      (forget s process).recordingEnabled = s.recordingEnabled ∧
      (forget s process).final = s.final ∧ (forget s process).returned = s.returned := by
    unfold forget
    split
    all_goals exact ⟨rfl, rfl, rfl, rfl⟩
  unfold finalized
  split
  · unfold scheduleRestart
    split
    all_goals exact forgets
  · exact forgets

theorem ending_grown {index : Nat} {ok : Bool} {task : Task}
    (found : s.tasks[index]? = some task) (ending : task.ending = some process)
    (waits : ¬(ok && s.any process Process.alive) = true) :
    Grown s (.resume index ok) (finalizeRecordingState (s.drop index) process) := by
  intro other member
  rcases finalizeRecordingState_tasks process other member with old | ⟨abnormal, rfl⟩
  · exact Or.inl (mem_of_mem_eraseIdx old)
  · refine Or.inr (.waited index ok task process found ending ?_)
    rintro rfl
    simpa using waits

theorem resume_grown {task : Task} {ok : Bool} {index : Nat} (found : s.tasks[index]? = some task)
    (goes : resume (s.drop index) task ok = some t) : Grown s (.resume index ok) t := by
  have member : task ∈ s.tasks := List.mem_of_getElem? found
  have erased : ∀ other ∈ (s.drop index).tasks, other ∈ s.tasks := fun _ kept =>
    mem_of_mem_eraseIdx kept
  cases task with
  | check caller =>
    cases ok with
    | false =>
      cases goes
      exact .beside erased
    | true =>
      cases goes
      split
      · exact .beside erased
      · split
        · exact .awaits (.confirm caller none) ⟨Or.inl member, by simp⟩ fun _ => mem_drop_await
        · rename_i inactive
          exact .awaits (.probe caller s.spawned)
            ⟨member, by simpa [Manager.drop] using inactive, rfl⟩ fun _ => mem_drop_await
  | probe caller seen =>
    cases ok with
    | false =>
      cases goes
      exact .beside erased
    | true =>
      cases goes
      refine .awaits (.confirm caller (some s.spawned)) ⟨Or.inr ⟨seen, member⟩, ?_⟩ fun _ =>
        mem_drop_await
      rintro id ⟨⟩
      exact Nat.lt_succ_self _
  | confirm caller process =>
    cases ok with
    | true =>
      cases goes
      cases caller <;> exact .beside erased
    | false =>
      cases process with
      | none =>
        cases goes
        exact .beside erased
      | some process =>
        cases goes
        exact .awaits (.rollback process) ⟨caller, member⟩ fun _ => mem_drop_await
  | rollback process | suspend process =>
    rw [resume] at goes
    split at goes
    · cases goes
    · rename_i waits
      cases goes
      exact ending_grown process found rfl waits
  | stop caller =>
    cases ok with
    | true =>
      cases goes
      exact .awaits .cancel ⟨index, caller, rfl, found⟩ fun _ => mem_drop_await
    | false =>
      cases goes
      exact .beside erased
  | cancel =>
    cases goes
    unfold stopActive
    split
    · exact .beside erased
    · rename_i process active
      exact .awaits (.wait process) ⟨member, active⟩ fun _ => mem_drop_await
  | wait process =>
    rw [resume] at goes
    split at goes
    · cases goes
    · rename_i waits
      cases goes
      intro other kept
      rcases mem_await kept with old | rfl
      · exact ending_grown process found rfl waits other old
      · exact Or.inr member
  | finish process =>
    rw [resume] at goes
    split at goes
    · cases goes
      exact .beside erased
    · cases goes
  | finalize process abnormal =>
    cases goes
    refine .beside ?_
    rw [(finalized_same process abnormal ok).1]
    exact erased
  | motionLookup =>
    cases goes
    split
    · exact .beside erased
    · rename_i wanted
      split
      · exact .beside erased
      · rename_i idle
        simp only [Bool.not_eq_true', Bool.and_eq_true, decide_eq_true_eq,
          Bool.not_eq_false] at wanted
        obtain ⟨⟨rfl, enabled⟩, armed⟩ := wanted
        exact .awaits (.check .motion)
          (.motion index found enabled armed (by simpa [Manager.drop] using idle)) fun _ =>
            mem_drop_await
  | failsafeLookup cego =>
    cases goes
    split
    · unfold definirFailsafe
      split
      · exact .beside erased
      · rename_i ok wanted
        simp only [Bool.not_eq_true', Bool.and_eq_true, decide_eq_true_eq,
          Bool.not_eq_false] at wanted
        subst ok
        split
        · rename_i blind
          subst blind
          split
          · exact .beside erased
          · rename_i idle
            exact .awaits (.check .failsafe)
              (.failsafe index found wanted.1 wanted.2 (by simpa [Manager.drop] using idle))
              fun _ => mem_drop_await
        · exact .beside erased
    · exact .beside erased
  | quietLookup =>
    cases goes
    split
    · rename_i wanted
      simp only [Bool.and_eq_true, decide_eq_true_eq] at wanted
      obtain ⟨⟨rfl, armed⟩, flag⟩ := wanted
      exact .awaits (.stop .quiet) (.quiet index found armed flag) fun _ => mem_drop_await
    · exact .beside erased
  | restartLookup =>
    cases goes
    split
    · rename_i wanted
      simp only [Bool.and_eq_true] at wanted
      obtain ⟨⟨rfl, flag⟩, enabled⟩ := wanted
      exact .awaits (.check .restart) (.restart index found enabled flag) fun _ =>
        mem_drop_await
    · exact .beside erased
  | diskGuardLookup =>
    cases goes
    split
    · rename_i wanted
      simp only [Bool.and_eq_true, decide_eq_true_eq] at wanted
      obtain ⟨⟨⟨rfl, enabled⟩, flag⟩, continuous⟩ := wanted
      exact .awaits (.check .diskGuard) (.diskGuard index found enabled continuous flag)
        fun _ => mem_drop_await
    · exact .beside erased

theorem stopAll_grown {u : Manager} (tasks : u.tasks = s.tasks) (active : u.active = s.active)
    (asks : s.active.isSome = true → Asks s a .stopAll false) : Grown s a (stopAll u) := by
  unfold stopAll
  split
  · rename_i running
    rw [active] at running
    refine .awaits (.stop .stopAll) (asks running) fun task member => ?_
    rw [← tasks]
    exact mem_await member
  · exact .beside fun _ member => tasks ▸ member

theorem step_grown (taken : step s a = some t) : Grown s a t := by
  cases a with
  | start =>
    cases taken
    exact .awaits (.check .operator) .start fun _ => mem_await
  | stop =>
    cases taken
    exact .awaits (.stop .operator) .stop fun _ => mem_await
  | motionDetected =>
    cases taken
    exact .awaits .motionLookup rfl fun _ => mem_await
  | report cego =>
    cases taken
    split
    · exact .beside fun _ => id
    · exact .awaits (.failsafeLookup cego) trivial fun _ => mem_await
  | motionStopTimer =>
    rw [step] at taken
    split at taken
    · cases taken
      split
      · exact .beside fun _ => id
      · exact .awaits .quietLookup trivial fun _ => mem_await
    · cases taken
  | manualStopTimer =>
    rw [step] at taken
    split at taken
    · cases taken
      exact .awaits (.stop .manualTimer) .manualTimer fun _ => mem_await
    · cases taken
  | restartTimer =>
    rw [step] at taken
    split at taken
    · cases taken
      split
      · exact .beside fun _ => id
      · exact .awaits .restartLookup trivial fun _ => mem_await
    · cases taken
  | suspend =>
    obtain ⟨process, active, rfl⟩ := Option.map_eq_some_iff.mp taken
    exact .awaits (.suspend process) active fun _ => mem_await
  | diskGuard =>
    rw [step] at taken
    split at taken
    · cases taken
      exact .awaits .diskGuardLookup trivial fun _ => mem_await
    · cases taken
  | stopAll =>
    cases taken
    exact stopAll_grown rfl rfl .stopAll
  | shutdown =>
    cases taken
    exact stopAll_grown rfl rfl .shutdown
  | setMotionRecording enabled | setEnabled enabled =>
    cases taken
    exact .beside fun _ => id
  | die process =>
    rw [step] at taken
    split at taken
    · rename_i running
      cases taken
      intro task member
      rcases finalizeRecordingState_tasks process task member with old | ⟨abnormal, rfl⟩
      · exact Or.inl old
      · simp only [Manager.any, any_eq_true, Bool.and_eq_true, decide_eq_true_eq] at running
        obtain ⟨p, inS, rfl, -⟩ := running
        exact Or.inr (.died p inS)
    · cases taken
  | resume index ok =>
    obtain ⟨task, found, goes⟩ := Option.bind_eq_some_iff.mp taken
    exact resume_grown found goes
  | reboot autoStart =>
    cases taken
    unfold reboot
    split
    · rename_i wanted
      simp only [Bool.and_eq_true, decide_eq_true_eq] at wanted
      obtain ⟨⟨⟨rfl, enabled⟩, flag⟩, continuous⟩ := wanted
      exact .awaits (.check .boot) (.boot enabled continuous flag) fun _ member =>
        Or.inr (mem_singleton.mp member)
    · exact .beside (by simp)

/-- The recorder that a call is about. -/
def Task.recorder : Task → Option Nat
  | .confirm _ process => process
  | .rollback process => some process
  | .wait process => some process
  | .finish process => some process
  | .suspend process => some process
  | .finalize process _ => some process
  | _ => none

/-- A start that has looked finds `active` as it was, unless another one has spawned a recorder
since; and what is about to be forgotten has ended. -/
structure Sound (s : Manager) : Prop where
  numbered : Numbered s
  registered : Registered s
  seen : ∀ caller seen, .probe caller seen ∈ s.tasks → seen ≤ s.spawned
  looked : ∀ caller, .probe caller s.spawned ∈ s.tasks → s.active = none
  named : ∀ task ∈ s.tasks, ∀ id, task.recorder = some id → id < s.spawned
  ended : ∀ id abnormal, .finalize id abnormal ∈ s.tasks → s.any id Process.alive = false

theorem ended_orderly (orderly : Orderly s a) {id : Nat} (ended : Ended s a id) :
    a = .die id ∨ s.any id Process.alive = false := by
  cases ended with
  | died p inS => exact Or.inl rfl
  | waited index ok task process found ending waits =>
    refine Or.inr ?_
    cases ok with
    | true => exact waits rfl
    | false => exact (orderly (index, false) rfl task found).2 _ ending rfl

theorem ending_recorder {task : Task} {id : Nat} (ending : task.ending = some id) :
    task.recorder = some id := by
  cases task with
  | rollback other | wait other | suspend other => exact ending
  | check caller | probe caller seen | confirm caller other | stop caller | cancel
  | finish other | finalize other abnormal | motionLookup | failsafeLookup cego | quietLookup
  | restartLookup | diskGuardLookup => cases ending

theorem Sound.named_later (sound : Sound s) (grown : Grown s a t) (later : s.spawned ≤ t.spawned) :
    ∀ task ∈ t.tasks, ∀ id, task.recorder = some id → id < t.spawned := by
  intro task member id names
  rcases grown task member with old | born
  · exact (sound.named task old id names).trans_le later
  · cases task with
    | confirm caller process => exact born.2 id names
    | rollback process =>
      cases names
      obtain ⟨caller, confirms⟩ := born
      exact (sound.named _ confirms id rfl).trans_le later
    | wait process =>
      cases names
      exact (sound.numbered.active id born.2).trans_le later
    | suspend process =>
      cases names
      exact (sound.numbered.active id born).trans_le later
    | finish process =>
      cases names
      exact (sound.named _ born id rfl).trans_le later
    | finalize process abnormal =>
      cases names
      cases born with
      | died p inS => exact (sound.numbered.below p inS).trans_le later
      | waited index ok other process found ending waits =>
        exact (sound.named other (List.mem_of_getElem? found) _
          (ending_recorder ending)).trans_le later
    | check caller | probe caller seen | stop caller | cancel | motionLookup | failsafeLookup cego
    | quietLookup | restartLookup | diskGuardLookup => cases names

theorem Sound.ended_later (sound : Sound s) (orderly : Orderly s a) (grown : Grown s a t)
    (alive : ∀ p ∈ t.processes, p.alive = true → p.id < s.spawned →
      ∃ q ∈ s.processes, q.id = p.id ∧ q.alive = true)
    (died : ∀ id, a = .die id → t.any id Process.alive = false) :
    ∀ id abnormal, .finalize id abnormal ∈ t.tasks → t.any id Process.alive = false := by
  intro id abnormal member
  have still : id < s.spawned → s.any id Process.alive = false → t.any id Process.alive = false := by
    intro below dead
    rw [any_alive] at dead ⊢
    rintro p inT rfl
    by_contra runs
    obtain ⟨q, inS, same, running⟩ := alive p inT (Bool.not_eq_false _ ▸ runs) below
    rw [dead q inS same] at running
    cases running
  rcases grown _ member with old | born
  · exact still (sound.named _ old id rfl) (sound.ended id abnormal old)
  · rcases ended_orderly orderly born with dies | dead
    · exact died id dies
    · cases born with
      | died p inS => exact still (sound.numbered.below p inS) dead
      | waited index ok other process found ending waits =>
        exact still (sound.named other (List.mem_of_getElem? found) _ (ending_recorder ending)) dead

theorem die_ended (id : Nat) (taken : step s (.die id) = some t) :
    t.any id Process.alive = false := by
  rw [step] at taken
  split at taken
  · cases taken
    have frame := finalizeRecordingState_frame (s.change id Process.killed) id
    rw [any_alive]
    rintro p inT rfl
    by_contra runs
    obtain ⟨q, inS, same, running⟩ := frame.alive p inT (Bool.not_eq_false _ ▸ runs)
    obtain ⟨before, -, rfl⟩ := mem_map.mp inS
    split at running
    · cases running
    · rename_i other
      rw [if_neg other] at same
      exact other same
  · cases taken

/-- A step that leaves the processes alone, or lets them end. -/
theorem frame_sound (sound : Sound s) (orderly : Orderly s a) (taken : step s a = some t)
    (frame : Frame s t) : Sound t := by
  have grown := step_grown taken
  refine ⟨frame.numbered sound.numbered, frame.registered sound.registered, ?_, ?_,
    sound.named_later grown frame.spawned.ge, sound.ended_later orderly grown ?_ ?_⟩
  · intro caller seen member
    rw [frame.spawned]
    rcases grown _ member with old | ⟨-, -, rfl⟩
    · exact sound.seen caller seen old
    · exact le_refl _
  · intro caller member
    rw [frame.spawned] at member
    rw [frame.active]
    rcases grown _ member with old | ⟨-, inactive, -⟩
    · exact sound.looked caller old
    · exact inactive
  · exact fun p inT alive _ => frame.alive p inT alive
  · rintro id rfl
    exact die_ended id taken

/-- No other start has spawned a recorder since the look, so that none runs. -/
theorem spawn_sound {index : Nat} {caller : Caller} {seen : Nat} (sound : Sound s)
    (found : s.tasks[index]? = some (.probe caller seen)) (order : s.spawned = seen)
    (orderly : Orderly s (.resume index true))
    (taken : step s (.resume index true) = some (spawn (s.drop index) caller)) :
    Sound (spawn (s.drop index) caller) := by
  have inactive : s.active = none := sound.looked caller
    (order ▸ List.mem_of_getElem? found)
  have none_ : ∀ p ∈ s.processes, p.alive = false := by
    intro p inS
    by_contra alive
    have active := sound.registered p inS (Bool.not_eq_false _ ▸ alive)
    rw [inactive] at active
    cases active
  have numbered : Numbered (s.drop index) :=
    ⟨sound.numbered.distinct, sound.numbered.below, sound.numbered.active⟩
  obtain ⟨numberedT, registered⟩ := spawn_registered (s.drop index) numbered caller
  have grown := step_grown taken
  have above : ∀ caller' seen', .probe caller' seen' ∈ (spawn (s.drop index) caller).tasks →
      seen' ≤ s.spawned := by
    intro caller' seen' member
    rcases grown _ member with old | ⟨-, -, rfl⟩
    · exact sound.seen caller' seen' old
    · exact le_refl _
  refine ⟨numberedT, registered none_, ?_, ?_,
    sound.named_later grown (Nat.le_succ _), sound.ended_later orderly grown ?_ nofun⟩
  · exact fun caller' seen' member => (above caller' seen' member).trans (Nat.le_succ _)
  · intro caller' member
    exact absurd (above caller' _ member) (Nat.not_succ_le_self _)
  · intro p inT alive below
    rcases mem_append.mp inT with old | new
    · exact ⟨p, old, rfl, alive⟩
    · rw [mem_singleton.mp new] at below
      exact absurd below (Nat.lt_irrefl _)

theorem finalize_sound {index process : Nat} {abnormal ok : Bool} (sound : Sound s)
    (found : s.tasks[index]? = some (.finalize process abnormal))
    (orderly : Orderly s (.resume index ok))
    (taken : step s (.resume index ok) = some (finalized (s.drop index) process abnormal ok)) :
    Sound (finalized (s.drop index) process abnormal ok) := by
  have numbered : Numbered (s.drop index) :=
    ⟨sound.numbered.distinct, sound.numbered.below, sound.numbered.active⟩
  have dead := sound.ended process abnormal (List.mem_of_getElem? found)
  have frame := finalized_frame (s.drop index) process abnormal ok
  have grown := step_grown taken
  have fade := forget_fade (s.drop index) process
  refine ⟨frame.numbered (forget_numbered (s.drop index) process numbered),
    frame.registered (forget_registered (s.drop index) process sound.registered dead), ?_, ?_,
    sound.named_later grown ?_, sound.ended_later orderly grown ?_ nofun⟩
  · intro caller seen member
    rw [frame.spawned, fade.1]
    rcases grown _ member with old | ⟨-, -, rfl⟩
    · exact sound.seen caller seen old
    · exact le_refl _
  · intro caller member
    rw [frame.spawned, fade.1] at member
    rw [frame.active]
    rcases grown _ member with old | ⟨-, inactive, -⟩
    · exact fade.2.1 (sound.looked caller old)
    · exact fade.2.1 inactive
  · rw [frame.spawned, fade.1]
    exact le_refl _
  · intro p inT alive _
    obtain ⟨q, between, same, running⟩ := frame.alive p inT alive
    obtain ⟨r, inS, equal, already⟩ := fade.2.2 q between running
    exact ⟨r, inS, equal.trans same, already⟩

theorem reboot_sound (sound : Sound s) (autoStart : Bool) : Sound (reboot s autoStart) := by
  obtain ⟨numbered, registered⟩ := reboot_frame s autoStart sound.numbered
  have tasks : ∀ task ∈ (reboot s autoStart).tasks, task = .check .boot := by
    unfold reboot
    split
    · exact fun _ => mem_singleton.mp
    · exact fun _ => (not_mem_nil).elim
  refine ⟨numbered, registered, ?_, ?_, ?_, ?_⟩
  · intro caller seen member
    cases tasks _ member
  · intro caller member
    cases tasks _ member
  · intro task member id names
    have boots := tasks task member
    subst boots
    cases names
  · intro id abnormal member
    cases tasks _ member

theorem step_sound (s : Manager) (a : Event) (t : Manager) (orderly : Orderly s a)
    (sound : Sound s) (taken : step s a = some t) : Sound t := by
  by_cases spawns : ∃ index caller seen,
      a = .resume index true ∧ s.tasks[index]? = some (.probe caller seen)
  · obtain ⟨index, caller, seen, rfl, found⟩ := spawns
    have goes := taken
    obtain ⟨task, same, goes⟩ := Option.bind_eq_some_iff.mp goes
    rw [found] at same
    cases same
    cases goes
    exact spawn_sound sound found ((orderly (index, true) rfl _ found).1 seen rfl rfl) orderly taken
  by_cases forgets : ∃ index ok process abnormal,
      a = .resume index ok ∧ s.tasks[index]? = some (.finalize process abnormal)
  · obtain ⟨index, ok, process, abnormal, rfl, found⟩ := forgets
    have goes := taken
    obtain ⟨task, same, goes⟩ := Option.bind_eq_some_iff.mp goes
    rw [found] at same
    cases same
    cases goes
    exact finalize_sound sound found orderly taken
  by_cases boots : ∃ autoStart, a = .reboot autoStart
  · obtain ⟨autoStart, rfl⟩ := boots
    cases taken
    exact reboot_sound sound autoStart
  · apply frame_sound sound orderly taken
    apply step_frame taken
    · rintro index ok rfl task found
      constructor
      · rintro caller seen rfl
        exact Bool.eq_false_iff.mpr fun yes => spawns ⟨index, caller, seen, by rw [yes], found⟩
      · rintro process abnormal rfl
        exact forgets ⟨index, ok, process, abnormal, rfl, found⟩
    · exact fun autoStart same => boots ⟨autoStart, same⟩

theorem booted_sound (booted : Booted s) : Sound s := by
  obtain ⟨active, processes, tasks, -, -⟩ := booted
  refine ⟨⟨?_, ?_, ?_⟩, ?_, ?_, ?_, ?_, ?_⟩
  all_goals simp [Registered, active, processes, tasks]

/-- Over every run, in whatever order the calls go on: at most one recorder runs and a stop reaches
it, as long as each start spawns before another one has spawned since its look, and no wait for a
recorder that runs is given up. -/
theorem recorders_exclusive (start : Manager) (booted : Booted start) (events : List Event)
    (orderly : Runs.Allowed step Orderly start events) (n : Nat) (s : Manager)
    (reached : Runs.run step start (events.take n) = some s) : Exclusive s := by
  have sound := Runs.invariant_along step step_sound start s events n orderly
    (booted_sound booted) reached
  exact sound.registered.exclusive sound.numbered

instance (s : Manager) (ok : Bool) (task : Task) : Decidable (task.orderly s ok) :=
  inferInstanceAs (Decidable (_ ∧ _))

instance (s : Manager) (a : Event) : Decidable (Orderly s a) :=
  inferInstanceAs (Decidable (∀ call ∈ a.resumed, ∀ task ∈ s.tasks[call.1]?, task.orderly s call.2))

/-- An armed camera that records nothing. -/
def quietCamera : Manager where
  enabled := true
  mode := .armed
  recordingEnabled := false
  active := none
  processes := []
  spawned := 0
  restartTimer := false
  motionStopTimer := false
  manualStopTimer := false
  blindFailsafe := false
  diskGuardSuspended := false
  shuttingDown := false
  tasks := []
  final := false
  returned := false

theorem quietCamera_booted : Booted quietCamera := ⟨rfl, rfl, rfl, rfl, rfl⟩

/-- The operator starts a recording while a motion waits for the row, the recorder dies and is
started again, and the operator stops it. -/
def orderlyRecording : List Event :=
  [.start, .motionDetected, .resume 0 true, .resume 1 true, .resume 1 true, .resume 0 true, .die 0,
    .resume 0 true, .restartTimer, .resume 0 true, .resume 0 true, .resume 0 true, .resume 0 true,
    .stop, .resume 0 true, .resume 0 true, .die 1, .resume 0 true, .resume 0 true, .resume 0 true]

theorem orderlyRecording_exclusive :
    (Runs.run step quietCamera orderlyRecording).isSome = true ∧
      ∀ n s, Runs.run step quietCamera (orderlyRecording.take n) = some s → Exclusive s := by
  refine ⟨by decide +kernel, ?_⟩
  apply recorders_exclusive quietCamera quietCamera_booted orderlyRecording
  apply Runs.allowedBy_allowed
  decide +kernel

/-- The operator and a motion start a recording at the same time, and both find none. -/
def bothStart : List Event :=
  [.start, .motionDetected, .resume 0 true, .resume 0 true, .resume 1 true, .resume 0 true,
    .resume 0 true]

theorem bothStart_twoRecorders : ¬∀ start, Booted start → ∀ (events : List Event) s,
    Runs.run step start events = some s → Exclusive s := by
  intro always
  have ends : (Runs.run step quietCamera bothStart).isSome = true := by decide +kernel
  obtain ⟨s, reached⟩ := Option.isSome_iff_exists.mp ends
  have exclusive := always quietCamera quietCamera_booted _ s reached
  have two : (Runs.run step quietCamera bothStart).all (fun s => s.processes =
      [⟨0, true, false, false, false⟩, ⟨1, true, false, false, false⟩]) = true := by decide +kernel
  rw [reached, Option.all_some, decide_eq_true_eq] at two
  have one := exclusive.one
  rw [two] at one
  exact absurd (one _ (mem_cons_self) _ (mem_cons_of_mem _ mem_cons_self) rfl rfl) (by decide)

end DracVms.Recorder
