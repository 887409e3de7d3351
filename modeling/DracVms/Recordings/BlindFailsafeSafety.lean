import DracVms.Recordings.BlindFailsafe

namespace DracVms.BlindFailsafe

/-- A start in flight. -/
def Task.starts : Task → Bool
  | .start _ => true
  | .probe _ => true
  | _ => false

def starting (tasks : List Task) : Bool := tasks.any Task.starts

/-- A recorder runs, or one is being started. -/
def covered (s : Manager) : Bool := s.active.isSome || starting s.tasks

/-- A blind report that comes now has a recorder running or being started, once it has its row. -/
def Answered (s : Manager) : Prop :=
  ∃ t, Runs.run step s [.report true, .resume s.tasks.length true] = some t ∧ covered t = true

/-- A motion camera has its recorder, or the next blind report attempts to start one; and no timer
has stopped a recorder that the failsafe held. -/
structure Safe (s : Manager) : Prop where
  watched : s.armed = true → s.enabled = true → covered s = true ∨ Answered s
  unstopped : s.stoppedHeld = false

/-- A stop that is under way, from the look of the quiet timer to the end of the process. -/
def Task.stops : Task → Bool
  | .quiet => true
  | .stop _ => true
  | .kill _ _ => true
  | _ => false

/-- A start that can still fail, or be taken back. -/
def Task.startFails : Task → Bool
  | .start _ => true
  | .probe _ => true
  | .confirm _ recorder => recorder.isSome
  | _ => false

/-- No start fails while the failsafe has the camera, and the failsafe takes a camera while no stop
is under way. -/
def Task.attended (s : Manager) (ok : Bool) (task : Task) : Prop :=
  (task.startFails = true → ok = false → s.held = false) ∧
    (task = .lookup true → ok = true → s.armed = true → s.enabled = true →
      ∀ other ∈ s.tasks, other.stops = false)

/-- And while it has the camera nobody stops a manual recording, its limit does not run out, and an
edit does not arm or enable a camera with an old mark. -/
def Attended (s : Manager) : Event → Prop
  | .resume index ok => ∀ task ∈ s.tasks[index]?, task.attended s ok
  | .stopManualRecording => s.held = false
  | .manualStopTimer => s.held = false
  | .edit armed enabled => s.blindFailsafe = true →
      (armed = true → s.armed = true) ∧ (enabled = true → s.enabled = true)
  | _ => True

variable (s : Manager)

theorem resume_last (task : Task) (ok : Bool) :
    step (s.await task) (.resume s.tasks.length ok) = some (resume s task ok) := by
  have last : (s.tasks ++ [task])[s.tasks.length]? = some task := List.getElem?_concat_length
  have rest : (s.tasks ++ [task]).eraseIdx s.tasks.length = s.tasks := by
    rw [List.eraseIdx_append_of_length_le (Nat.le_refl _), Nat.sub_self]
    exact List.append_nil _
  show ((s.tasks ++ [task])[s.tasks.length]?.map _) = _
  rw [last, Option.map_some]
  show some (resume { s with tasks := (s.tasks ++ [task]).eraseIdx s.tasks.length } task ok) = _
  rw [rest]

theorem starting_append (tasks : List Task) (task : Task) :
    starting (tasks ++ [task]) = (starting tasks || task.starts) := by
  simp [starting]

theorem starting_eraseIdx (tasks : List Task) (index : Nat) (task : Task)
    (found : tasks[index]? = some task) :
    starting tasks = (task.starts || starting (tasks.eraseIdx index)) := by
  induction tasks generalizing index with
  | nil => cases found
  | cons first rest ih =>
    cases index with
    | zero =>
      cases found
      rfl
    | succ index =>
      have later := ih index found
      simp only [starting, List.any_cons, List.eraseIdx_cons_succ] at later ⊢
      rw [later, Bool.or_left_comm]

theorem answered_iff (armed : s.armed = true) (enabled : s.enabled = true) :
    Answered s ↔ s.blindFailsafe = false := by
  constructor
  · rintro ⟨t, reached, -⟩
    cases blind : s.blindFailsafe with
    | false => rfl
    | true =>
      obtain ⟨u, first, later⟩ := Runs.run_cons step reached
      rw [step, blind, if_pos rfl] at first
      cases first
      obtain ⟨v, second, -⟩ := Runs.run_cons step later
      rw [step, List.getElem?_eq_none (Nat.le_refl _)] at second
      cases second
  · intro free
    refine ⟨definirFailsafe s true, ?_, ?_⟩
    · have reported : step s (.report true) = some (s.await (.lookup true)) := by
        rw [step, free, if_neg nofun]
      show (step s (.report true)).bind _ = _
      rw [reported]
      show (step (s.await (.lookup true)) (.resume s.tasks.length true)).bind _ = _
      rw [resume_last]
      rfl
    · cases active : s.active with
      | none =>
        simp [definirFailsafe, armed, enabled, active, covered, Manager.await, starting_append,
          Task.starts]
      | some recorder => simp [definirFailsafe, armed, enabled, active, covered]

/-- What is owed to a camera that the failsafe has. -/
theorem safe_iff : Safe s ↔ (s.held = true → covered s = true) ∧ s.stoppedHeld = false := by
  constructor
  · intro safe
    refine ⟨?_, safe.unstopped⟩
    intro held
    simp only [Manager.held, Bool.and_eq_true] at held
    obtain ⟨⟨blind, armed⟩, enabled⟩ := held
    rcases safe.watched armed enabled with looked | answered
    · exact looked
    · rw [(answered_iff s armed enabled).mp answered] at blind
      cases blind
  · rintro ⟨looked, unstopped⟩
    refine ⟨?_, unstopped⟩
    intro armed enabled
    cases blind : s.blindFailsafe with
    | true => exact Or.inl (looked (by simp [Manager.held, blind, armed, enabled]))
    | false => exact Or.inr ((answered_iff s armed enabled).mpr blind)

/-- The camera that the failsafe has is looked after, and no stop is under way. -/
structure Tended (s : Manager) : Prop where
  covered : s.held = true → covered s = true
  calm : s.held = true → ∀ task ∈ s.tasks, task.stops = false
  unstopped : s.stoppedHeld = false

theorem Tended.safe (tended : Tended s) : Safe s :=
  (safe_iff s).mpr ⟨tended.covered, tended.unstopped⟩

variable {s}

theorem held_iff : s.held = true ↔
    s.blindFailsafe = true ∧ s.armed = true ∧ s.enabled = true := by
  simp [Manager.held, and_assoc]

theorem loose (free : s.held = false) (unstopped : s.stoppedHeld = false) : Tended s := by
  refine ⟨?_, ?_, unstopped⟩
  all_goals simp [free]

theorem Tended.await (tended : Tended s) (task : Task) (starts : s.held = true → task.stops = false) :
    Tended (s.await task) := by
  refine ⟨fun held => ?_, fun held other member => ?_, tended.unstopped⟩
  · have looked := tended.covered held
    simp only [BlindFailsafe.covered, Manager.await, starting_append, Bool.or_eq_true] at looked ⊢
    exact looked.imp_right Or.inl
  · rcases List.mem_append.mp member with old | new
    · exact tended.calm held other old
    · rw [List.mem_singleton.mp new]
      exact starts held

/-- A start that is under way covers the camera. -/
theorem await_start (task : Task) (starts : task.starts = true)
    (calm : s.held = true → ∀ task ∈ s.tasks, task.stops = false)
    (unstopped : s.stoppedHeld = false) : Tended (s.await task) := by
  refine ⟨fun _ => ?_, fun held other member => ?_, unstopped⟩
  · simp [covered, Manager.await, starting_append, starts]
  · rcases List.mem_append.mp member with old | new
    · exact calm held other old
    · rw [List.mem_singleton.mp new]
      cases task with
      | start caller | probe caller => rfl
      | lookup cego | motionLookup | confirm caller recorder | quiet | stop origin
      | kill origin recorder => cases starts

/-- The failsafe leaves no camera that it takes without a recorder or a start. -/
theorem definirFailsafe_tended (cego : Bool) (unstopped : s.stoppedHeld = false)
    (calm : cego = true → s.armed = true → s.enabled = true →
      ∀ task ∈ s.tasks, task.stops = false) : Tended (definirFailsafe s cego) := by
  unfold definirFailsafe
  split
  · exact loose (by simp [Manager.held]) unstopped
  · rename_i armed
    simp only [Bool.not_eq_true', Bool.and_eq_true, Bool.not_eq_false] at armed
    split
    · rename_i blind
      have still := calm blind armed.2 armed.1
      split
      · rename_i running
        exact ⟨fun _ => by simp [covered, running], fun _ => still, unstopped⟩
      · exact await_start (.start .failsafe) rfl (fun _ => still) unstopped
    · exact loose (by simp [Manager.held]) unstopped

/-- What a call leaves that goes on, where `s` is the state without it. -/
theorem resume_tended (task : Task) (ok : Bool)
    (before : s.held = true → (covered s || task.starts) = true)
    (calm : s.held = true → task.stops = false ∧ ∀ other ∈ s.tasks, other.stops = false)
    (unstopped : s.stoppedHeld = false) (attended : task.attended s ok) :
    Tended (resume s task ok) := by
  have rest : task.starts = false → Tended s := fun ends =>
    ⟨fun held => by simpa [ends] using before held, fun held => (calm held).2, unstopped⟩
  have stopped : task.stops = true → s.held = false := by
    intro stops
    by_contra held
    rw [(calm (Bool.not_eq_false _ ▸ held)).1] at stops
    cases stops
  cases task with
  | lookup cego =>
    cases ok with
    | false => exact rest rfl
    | true =>
      apply definirFailsafe_tended cego unstopped
      rintro rfl armed enabled
      exact attended.2 rfl rfl armed enabled
  | motionLookup =>
    cases ok with
    | false => exact rest rfl
    | true =>
      rw [resume, handleMotion]
      split
      · exact rest rfl
      · split
        · exact ⟨(rest rfl).covered, (rest rfl).calm, unstopped⟩
        · exact (rest rfl).await _ fun _ => rfl
  | start caller =>
    cases ok with
    | false => exact loose (attended.1 rfl rfl) unstopped
    | true =>
      rw [resume]
      split
      · rename_i disabled
        exact loose (by simpa [Manager.held] using fun _ _ => by simpa using disabled) unstopped
      · split
        · rename_i running
          refine Tended.await ⟨fun _ => ?_, fun held => (calm held).2, unstopped⟩ _ fun _ => rfl
          simp [covered, running]
        · exact await_start _ rfl (fun held => (calm held).2) unstopped
  | probe caller =>
    cases ok with
    | false => exact loose (attended.1 rfl rfl) unstopped
    | true =>
      have spawned : Tended { s with active := some s.spawned, spawned := s.spawned + 1 } :=
        ⟨fun _ => rfl, fun held => (calm held).2, unstopped⟩
      exact spawned.await (.confirm caller (some s.spawned)) fun _ => rfl
  | confirm caller recorder =>
    cases ok with
    | true => cases caller <;> exact ⟨(rest rfl).covered, (rest rfl).calm, unstopped⟩
    | false =>
      cases recorder with
      | none => exact rest rfl
      | some recorder => exact loose (attended.1 rfl rfl) unstopped
  | quiet =>
    cases ok with
    | false => exact rest rfl
    | true =>
      rw [resume]
      split
      · exact loose (stopped rfl) unstopped
      · exact rest rfl
  | stop origin =>
    cases ok with
    | false => exact rest rfl
    | true =>
      rw [resume, stopActive]
      split
      · exact loose (stopped rfl) unstopped
      · refine loose (stopped rfl) ?_
        show (s.stoppedHeld || (decide (origin = Origin.timer) && s.held)) = false
        rw [unstopped, stopped rfl, Bool.and_false, Bool.or_false]
  | kill origin recorder =>
    rw [resume]
    split
    all_goals exact loose (stopped rfl) unstopped

theorem step_tended (s : Manager) (a : Event) (t : Manager) (attended : Attended s a)
    (tended : Tended s) (taken : step s a = some t) : Tended t := by
  cases a with
  | report cego =>
    cases taken
    split
    · exact tended
    · exact tended.await _ fun _ => rfl
  | motionDetected =>
    cases taken
    exact tended.await _ fun _ => rfl
  | startManualRecording =>
    cases taken
    have cleared : Tended { s with motionStopTimer := false, manualStopTimer := false } :=
      ⟨tended.covered, tended.calm, tended.unstopped⟩
    exact cleared.await (.start .manual) fun _ => rfl
  | stopManualRecording =>
    cases taken
    exact loose attended tended.unstopped
  | motionStopTimer =>
    rw [step] at taken
    split at taken
    · cases taken
      split
      · exact ⟨tended.covered, tended.calm, tended.unstopped⟩
      · rename_i seeing
        refine loose ?_ tended.unstopped
        show (s.blindFailsafe && s.armed && s.enabled) = false
        simp [seeing]
    · cases taken
  | manualStopTimer =>
    rw [step] at taken
    split at taken
    · cases taken
      exact loose attended tended.unstopped
    · cases taken
  | edit armed enabled =>
    cases taken
    have still : Manager.held { s with armed := armed, enabled := enabled } = true →
        s.held = true := by
      simp only [held_iff]
      rintro ⟨blind, arms, enables⟩
      exact ⟨blind, (attended blind).1 arms, (attended blind).2 enables⟩
    exact ⟨fun held => tended.covered (still held), fun held => tended.calm (still held),
      tended.unstopped⟩
  | resume index ok =>
    obtain ⟨task, found, rfl⟩ := Option.map_eq_some_iff.mp taken
    have rest := starting_eraseIdx s.tasks index task found
    have order := attended task found
    have unstopped : ({ s with tasks := s.tasks.eraseIdx index } : Manager).stoppedHeld = false :=
      tended.unstopped
    refine resume_tended task ok ?_ ?_ unstopped ⟨order.1, ?_⟩
    · intro held
      have looked := tended.covered held
      rw [covered, rest] at looked
      rw [covered, Bool.or_assoc, Bool.or_comm (starting _)]
      exact looked
    · intro held
      have silent := tended.calm held
      exact ⟨silent task (List.mem_of_getElem? found), fun other member =>
        silent other (List.mem_of_mem_eraseIdx member)⟩
    · exact fun looks yes armed enabled other member =>
        order.2 looks yes armed enabled other (List.mem_of_mem_eraseIdx member)

/-- In every run, in whatever order the answers come: the motion camera of a blind detector has a
recorder or gets one with the next report, and no timer stops a recorder of the failsafe. -/
theorem blindFailsafe_safe (start : Manager) (fresh : start.blindFailsafe = false)
    (unstopped : start.stoppedHeld = false) (events : List Event)
    (attended : Runs.Allowed step Attended start events) (s : Manager)
    (reached : Runs.run step start events = some s) : Safe s := by
  have tended := loose (s := start) (by simp [Manager.held, fresh]) unstopped
  exact (Runs.run_invariant step step_tended start s events attended tended reached).safe

instance (s : Manager) (ok : Bool) (task : Task) : Decidable (task.attended s ok) :=
  inferInstanceAs (Decidable ((_ → _ → _) ∧ (_ → _ → _ → _ → _)))

instance (s : Manager) (a : Event) : Decidable (Attended s a) :=
  match a with
  | .resume index ok => inferInstanceAs (Decidable (∀ task ∈ s.tasks[index]?, task.attended s ok))
  | .stopManualRecording | .manualStopTimer => inferInstanceAs (Decidable (s.held = false))
  | .edit _ _ => inferInstanceAs (Decidable (_ → (_ → _) ∧ (_ → _)))
  | .report _ | .motionDetected | .startManualRecording | .motionStopTimer => isTrue trivial

def armedCamera : Manager := ⟨true, true, false, false, none, 0, false, false, [], false⟩

/-- The detector is blind for a while: the failsafe starts the recorder, a motion in between and its
quiet timer change nothing, and the recorder is stopped when the detector sees again. -/
def blindSpell : List Event :=
  [.report true, .resume 0 true, .resume 0 true, .resume 0 true, .resume 0 true, .report true,
    .motionDetected, .resume 0 true, .motionStopTimer, .report false, .resume 0 true,
    .motionStopTimer, .resume 0 true, .resume 0 true, .resume 0 true]

theorem blindSpell_safe : (Runs.run step armedCamera blindSpell).isSome = true ∧
      ∀ s, Runs.run step armedCamera blindSpell = some s → Safe s := by
  refine ⟨by decide +kernel, ?_⟩
  apply blindFailsafe_safe armedCamera rfl rfl blindSpell
  apply Runs.allowedBy_allowed
  decide +kernel

/-- The start of the failsafe fails once, and no later report tries again. -/
theorem failedStart_unwatched : ¬∀ start : Manager, start.blindFailsafe = false →
    start.stoppedHeld = false → ∀ (events : List Event) s,
    Runs.run step start events = some s → Safe s := by
  intro always
  have reached : Runs.run step armedCamera [.report true, .resume 0 true, .resume 0 false] =
      some { armedCamera with blindFailsafe := true } := by decide +kernel
  have safe := always armedCamera rfl rfl _ _ reached
  have looked := ((safe_iff _).mp safe).1 rfl
  exact absurd looked (by decide +kernel)

end DracVms.BlindFailsafe
