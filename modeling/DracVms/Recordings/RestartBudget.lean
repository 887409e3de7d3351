import DracVms.Library.Runs

/-! The restarts of recordings that died without being asked to. -/
namespace DracVms.RestartBudget

open List Runs Function

/-- As `readEnvNumber` reads it: whole numbers from a least one on. -/
structure RestartConfig where
  maxAttempts : ℕ
  windowMs : ℕ
  baseDelayMs : ℕ
  maxDelayMs : ℕ
  isAutoRestartEnabled : Bool
  localControl : Bool
  leastAttempts : 1 ≤ maxAttempts
  leastWindow : 1000 ≤ windowMs
  leastBase : 1 ≤ baseDelayMs
  leastMax : 1 ≤ maxDelayMs

structure Plan where
  allowed : Bool
  attempt : ℕ
  delayMs : ℕ
  maxAttempts : ℕ
  windowMs : ℕ

/-- The maps of the service. `granted` and `clock` are not in the code: the times of the restarts
since the last time the camera's history was cleared, and the last time that was read. -/
structure Restarts (Camera : Type) where
  restartAttempts : Camera → Option (List ℤ)
  restartTimers : Camera → Bool
  active : Camera → Bool
  shuttingDown : Bool
  granted : Camera → List ℤ
  clock : ℤ

/-- What happens to a recording. A timer that fires finds the recording still wanted, or not. -/
inductive Event (Camera : Type) where
  | started (camera : Camera)
  | died (camera : Camera) (now : ℤ)
  | fired (camera : Camera) (starts : Bool)
  | stopped (camera : Camera)
  | shutdown

section Service

variable {Camera : Type} [DecidableEq Camera] (config : RestartConfig)

def initial (now : ℤ) : Restarts Camera :=
  ⟨fun _ => none, fun _ => false, fun _ => false, false, fun _ => [], now⟩

/-- The plan, and the history that is kept. -/
def planRecordingRestart (now : ℤ) (history : Option (List ℤ)) : Plan × List ℤ :=
  let previous := (history.getD []).filter fun at_ => at_ > now - config.windowMs
  if previous.length ≥ config.maxAttempts then
    (⟨false, previous.length, 0, config.maxAttempts, config.windowMs⟩, previous)
  else
    let delayMs := min config.maxDelayMs (config.baseDelayMs * 2 ^ previous.length)
    (⟨true, previous.length + 1, delayMs, config.maxAttempts, config.windowMs⟩, previous ++ [now])

def cancelPendingRestart (s : Restarts Camera) (camera : Camera) : Restarts Camera :=
  { s with restartTimers := update s.restartTimers camera false
           restartAttempts := update s.restartAttempts camera none
           granted := update s.granted camera [] }

/-- For a process whose end nobody asked for. -/
def scheduleRecordingRestart (s : Restarts Camera) (camera : Camera) (now : ℤ) : Restarts Camera :=
  if s.shuttingDown ∨ config.localControl = false ∨ config.isAutoRestartEnabled = false ∨
      s.restartTimers camera ∨ s.active camera then s
  else
    let (plan, history) := planRecordingRestart config now (s.restartAttempts camera)
    let s := { s with restartAttempts := update s.restartAttempts camera (some history)
                      clock := now }
    if plan.allowed then
      { s with restartTimers := update s.restartTimers camera true
               granted := update s.granted camera (s.granted camera ++ [now]) }
    else s

/-- A start that succeeds, of an operator, of the health check or of a timer. -/
def start (s : Restarts Camera) (camera : Camera) : Restarts Camera :=
  { s with active := update s.active camera true }

def finalizeRecordingState (s : Restarts Camera) (camera : Camera) : Restarts Camera :=
  { s with active := update s.active camera false }

def restartRecordingAfterCrash (s : Restarts Camera) (camera : Camera) (starts : Bool) :
    Restarts Camera :=
  let s := { s with restartTimers := update s.restartTimers camera false }
  if s.shuttingDown ∨ s.active camera ∨ starts = false then s else start s camera

/-- Only the cameras with a restart under way are cancelled. -/
def onApplicationShutdown (s : Restarts Camera) : Restarts Camera :=
  { s with shuttingDown := true
           restartTimers := fun _ => false
           restartAttempts := fun c => if s.restartTimers c then none else s.restartAttempts c
           granted := fun c => if s.restartTimers c then [] else s.granted c }

def step (s : Restarts Camera) : Event Camera → Option (Restarts Camera)
  | .started camera => some (start s camera)
  | .died camera now =>
    if s.active camera then
      some (scheduleRecordingRestart config (finalizeRecordingState s camera) camera now)
    else none
  | .fired camera starts =>
    if s.restartTimers camera then some (restartRecordingAfterCrash s camera starts) else none
  | .stopped camera => some (finalizeRecordingState (cancelPendingRestart s camera) camera)
  | .shutdown => some (onApplicationShutdown s)

/-- The clock does not go back. -/
def Onward (s : Restarts Camera) : Event Camera → Prop
  | .died _ now => s.clock ≤ now
  | _ => True

instance (s : Restarts Camera) (event : Event Camera) : Decidable (Onward s event) := by
  cases event <;> unfold Onward <;> infer_instance

/-- The restarts of the window that ends with an instant. -/
def within (config : RestartConfig) (granted : List ℤ) (t : ℤ) : List ℤ :=
  granted.filter fun at_ => t - config.windowMs < at_ ∧ at_ ≤ t

/-- The history of a camera holds what the window of the last plan holds. -/
structure Budgeted (history : Option (List ℤ)) (granted : List ℤ) (clock : ℤ) : Prop where
  kept : ∃ floor ≤ clock - config.windowMs, history.getD [] = granted.filter (· > floor)
  past : ∀ at_ ∈ granted, at_ ≤ clock
  budget : ∀ t, (within config granted t).length ≤ config.maxAttempts

variable {config}

theorem plan_delay (now : ℤ) (history : Option (List ℤ)) :
    (planRecordingRestart config now history).1.delayMs ≤ config.maxDelayMs := by
  unfold planRecordingRestart
  dsimp only
  split
  · exact Nat.zero_le _
  · exact min_le_left _ _

theorem budgeted_nil (clock : ℤ) : Budgeted config none [] clock :=
  ⟨⟨_, le_rfl, rfl⟩, by simp, by simp [within]⟩

theorem Budgeted.later {history : Option (List ℤ)} {granted : List ℤ} {clock now : ℤ}
    (budgeted : Budgeted config history granted clock) (onward : clock ≤ now) :
    Budgeted config history granted now := by
  obtain ⟨floor, low, same⟩ := budgeted.kept
  exact ⟨⟨floor, by omega, same⟩, fun at_ listed => (budgeted.past at_ listed).trans onward,
    budgeted.budget⟩

/-- One plan: what is left of the history is what the window holds, and there is room in it. -/
theorem Budgeted.plan {history : Option (List ℤ)} {granted : List ℤ} {now : ℤ}
    (budgeted : Budgeted config history granted now) :
    Budgeted config (some (planRecordingRestart config now history).2)
      (if (planRecordingRestart config now history).1.allowed then granted ++ [now] else granted)
      now := by
  obtain ⟨floor, low, same⟩ := budgeted.kept
  have window := config.leastWindow
  have previous : (history.getD []).filter (fun at_ => at_ > now - config.windowMs) =
      granted.filter (· > now - config.windowMs) := by
    rw [same, filter_filter]
    apply filter_congr
    intro at_ _
    simp
    omega
  unfold planRecordingRestart
  dsimp only
  rw [previous]
  split
  · exact ⟨⟨_, le_rfl, rfl⟩, budgeted.past, budgeted.budget⟩
  · rename_i room
    rw [if_pos rfl]
    refine ⟨⟨now - config.windowMs, le_rfl, ?_⟩, ?_, fun t => ?_⟩
    · have fresh : now > now - config.windowMs := by omega
      simp [filter_append, fresh]
    · simpa [or_imp, forall_and] using budgeted.past
    · by_cases early : t < now
      · simpa [within, filter_append, early] using budgeted.budget t
      · -- whatever such a window holds is still in the history
        have inside : (within config granted t).length ≤
            (granted.filter (· > now - config.windowMs)).length := by
          apply Sublist.length_le
          apply monotone_filter_right
          intro at_
          simp
          omega
        have one : (within config [now] t).length ≤ 1 := length_filter_le _ _
        simp only [within, filter_append, length_append] at inside one ⊢
        omega

/-- The invariant of all cameras. -/
def Sound (config : RestartConfig) (s : Restarts Camera) : Prop :=
  ∀ c, Budgeted config (s.restartAttempts c) (s.granted c) s.clock

theorem step_sound : Preserves (step config) (@Onward Camera) (Sound config) := by
  intro s event t onward sound stepped c
  cases event with
  | started camera =>
    cases stepped
    exact sound c
  | stopped camera =>
    cases stepped
    by_cases same : c = camera
    · simpa [finalizeRecordingState, cancelPendingRestart, same] using budgeted_nil s.clock
    · simpa [finalizeRecordingState, cancelPendingRestart, same] using sound c
  | shutdown =>
    cases stepped
    by_cases cancelled : s.restartTimers c = true
    · simpa [onApplicationShutdown, cancelled] using budgeted_nil s.clock
    · simpa [onApplicationShutdown, cancelled] using sound c
  | fired camera starts =>
    simp only [step, Option.ite_none_right_eq_some, Option.some.injEq] at stepped
    obtain ⟨-, rfl⟩ := stepped
    unfold restartRecordingAfterCrash
    dsimp only
    split <;> exact sound c
  | died camera now =>
    simp only [step, Option.ite_none_right_eq_some, Option.some.injEq] at stepped
    obtain ⟨-, rfl⟩ := stepped
    unfold scheduleRecordingRestart
    split
    · exact sound c
    · have later := (sound c).later onward
      have planned := ((sound camera).later onward).plan
      dsimp only [finalizeRecordingState]
      by_cases same : c = camera
      · subst same
        split at planned <;> simp_all
      · split <;> simpa [same] using later

/-- Since its history was last cleared no camera was restarted more often than the limit within a
window, however many crashes there were. -/
theorem restarts_budgeted (config : RestartConfig) (now : ℤ) (events : List (Event Camera))
    (s : Restarts Camera) (onward : Allowed (step config) Onward (initial now) events)
    (reached : run (step config) (initial now) events = some s) :
    (∀ c t, (within config (s.granted c) t).length ≤ config.maxAttempts) ∧
    (∀ now history, (planRecordingRestart config now history).1.delayMs ≤ config.maxDelayMs) ∧
    (∀ c, (cancelPendingRestart s c).restartAttempts = update s.restartAttempts c none) ∧
    (∀ c, (start s c).restartAttempts = s.restartAttempts) := by
  have sound := run_invariant _ step_sound _ s events onward (fun _ => budgeted_nil now) reached
  exact ⟨fun c => (sound c).budget, plan_delay, fun _ => rfl, fun _ => rfl⟩

end Service

def twice : RestartConfig :=
  ⟨2, 1000, 1, 1, true, true, by decide, by decide, by decide, by decide⟩

/-- Deaths at these times, with a restart after each of them. -/
def deaths (times : List ℤ) : List (Event Unit) :=
  .started () :: times.flatMap fun now => [.died () now, .fired () true]

theorem two_deaths : ∃ s, run (step twice) (initial 0) (deaths [0, 700]) = some s ∧
    (within twice (s.granted ()) 700).length ≤ 2 := by
  have ends : (run (step twice) (initial 0) (deaths [0, 700])).isSome = true := by decide +kernel
  obtain ⟨s, reached⟩ := Option.isSome_iff_exists.mp ends
  have onward := allowedBy_allowed (step twice) Onward (initial 0) (deaths [0, 700])
    (by decide +kernel)
  exact ⟨s, reached, (restarts_budgeted twice 0 _ s onward reached).1 () 700⟩

end DracVms.RestartBudget
