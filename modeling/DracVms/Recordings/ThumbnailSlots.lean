import DracVms.Library.Runs

/-! The places for the generation of thumbnails, and the requests that wait for one. -/
namespace DracVms.ThumbnailSlots

open List Runs

/-- `active` and `waiters` are the fields of the service. A waiter whose promise was resolved is
`woken` until it runs on. `holding` are the requests between the two calls. -/
structure Slots where
  active : Nat
  waiters : List Nat
  woken : List Nat
  holding : List Nat
  deriving DecidableEq

def idle : Slots := ⟨0, [], [], []⟩

/-- `RECORDING_THUMBNAIL_CONCURRENCY`, between one and four, and not always whole. -/
def thumbnailGenerationConcurrency (configured : ℚ) : ℚ := max 1 (min 4 configured)

inductive Event where
  | acquire (request : Nat)
  | resume (request : Nat)
  | release (request : Nat)

section Service

variable (concurrency : ℚ)

/-- `acquireThumbnailGenerationSlot`, as far as the wait. -/
def acquire (s : Slots) (request : Nat) : Slots :=
  if s.active < concurrency then
    { s with active := s.active + 1, holding := request :: s.holding }
  else { s with waiters := s.waiters ++ [request] }

/-- The rest of it, for a waiter that was resolved. -/
def resume (s : Slots) (request : Nat) : Slots :=
  { s with active := s.active + 1, woken := s.woken.erase request,
           holding := request :: s.holding }

/-- `releaseThumbnailGenerationSlot`, of a request that has finished or failed. -/
def release (s : Slots) (request : Nat) : Slots :=
  { active := s.active - 1
    waiters := s.waiters.drop 1
    woken := s.woken ++ s.waiters.take 1
    holding := s.holding.erase request }

def step (s : Slots) : Event → Option Slots
  | .acquire request => some (acquire concurrency s request)
  | .resume request => if request ∈ s.woken then some (resume s request) else none
  | .release request => if request ∈ s.holding then some (release s request) else none

/-- A newcomer that is let in leaves a place for each waiter that was resolved and has not run on. -/
def Spared (s : Slots) : Event → Prop
  | .acquire _ => s.active < concurrency → s.active + s.woken.length + 1 ≤ concurrency
  | _ => True

instance (s : Slots) (event : Event) : Decidable (Spared concurrency s event) := by
  cases event <;> unfold Spared <;> infer_instance

/-- The counter counts the holders, and nobody waits while a place is free. -/
structure Counted (s : Slots) : Prop where
  active : s.active = s.holding.length
  full : s.waiters ≠ [] → concurrency ≤ s.active + s.woken.length

/-- There is room for all that hold a place or were given one. -/
def Within (s : Slots) : Prop := (s.active + s.woken.length : ℚ) ≤ concurrency

variable {concurrency}

theorem length_erase_add_one {request : Nat} {requests : List Nat} (present : request ∈ requests) :
    (requests.erase request).length + 1 = requests.length := by
  have shorter := length_erase_of_mem present
  have some_ := length_pos_of_mem present
  omega

theorem counted_acquire (s : Slots) (request : Nat) (counted : Counted concurrency s) :
    Counted concurrency (acquire concurrency s request) := by
  unfold acquire
  split
  · refine ⟨?_, ?_⟩
    · rw [length_cons, ← counted.active]
    · intro waiting
      have full := counted.full waiting
      push_cast
      linarith
  · rename_i none_free
    refine ⟨counted.active, ?_⟩
    intro _
    have resolved : (0 : ℚ) ≤ s.woken.length := Nat.cast_nonneg _
    have full := not_lt.mp none_free
    dsimp only
    linarith

theorem counted_resume (s : Slots) (request : Nat) (woken : request ∈ s.woken)
    (counted : Counted concurrency s) : Counted concurrency (resume s request) := by
  have shorter : ((s.woken.erase request).length : ℚ) + 1 = s.woken.length := by
    exact_mod_cast length_erase_add_one woken
  refine ⟨?_, ?_⟩
  · show s.active + 1 = _
    rw [counted.active]
    rfl
  · intro waiting
    have full := counted.full waiting
    show concurrency ≤ ((s.active + 1 : Nat) : ℚ) + (s.woken.erase request).length
    push_cast
    linarith

theorem counted_release (s : Slots) (request : Nat) (held : request ∈ s.holding)
    (counted : Counted concurrency s) : Counted concurrency (release s request) := by
  have shorter := length_erase_add_one held
  have counter := counted.active
  refine ⟨?_, ?_⟩
  · show s.active - 1 = (s.holding.erase request).length
    omega
  · cases queue : s.waiters with
    | nil => simp [release, queue]
    | cons first rest =>
      intro _
      have full := counted.full (by rw [queue]; exact cons_ne_nil _ _)
      have fewer : ((s.active - 1 : Nat) : ℚ) + 1 = s.active := by
        have some_ : s.active - 1 + 1 = s.active := by omega
        exact_mod_cast some_
      show concurrency ≤ ((s.active - 1 : Nat) : ℚ) + (s.woken ++ s.waiters.take 1).length
      rw [queue]
      simp only [take_succ_cons, take_zero, length_append, length_singleton]
      push_cast
      linarith

theorem step_counted : Preserves (step concurrency) (fun _ _ => True) (Counted concurrency) := by
  intro s event t _ counted taken
  cases event with
  | acquire request =>
    cases taken
    exact counted_acquire s request counted
  | resume request =>
    obtain ⟨woken, same⟩ := Option.ite_none_right_eq_some.mp taken
    cases same
    exact counted_resume s request woken counted
  | release request =>
    obtain ⟨held, same⟩ := Option.ite_none_right_eq_some.mp taken
    cases same
    exact counted_release s request held counted

theorem step_within : Preserves (step concurrency) (Spared concurrency)
    (fun s => Counted concurrency s ∧ Within concurrency s) := by
  intro s event t spared kept taken
  obtain ⟨counted, room⟩ := kept
  refine ⟨step_counted s event t trivial counted taken, ?_⟩
  unfold Within at room ⊢
  cases event with
  | acquire request =>
    cases taken
    unfold acquire
    split
    · rename_i free
      have left : (s.active + s.woken.length + 1 : ℚ) ≤ concurrency := spared free
      push_cast
      linarith
    · exact room
  | resume request =>
    obtain ⟨woken, same⟩ := Option.ite_none_right_eq_some.mp taken
    cases same
    have shorter : ((s.woken.erase request).length : ℚ) + 1 = s.woken.length := by
      exact_mod_cast length_erase_add_one woken
    show ((s.active + 1 : Nat) : ℚ) + (s.woken.erase request).length ≤ concurrency
    push_cast
    linarith
  | release request =>
    obtain ⟨held, same⟩ := Option.ite_none_right_eq_some.mp taken
    cases same
    have one := length_take_le 1 s.waiters
    have some_ := length_pos_of_mem held
    have counter := counted.active
    have fewer : (s.active - 1) + (s.woken ++ s.waiters.take 1).length ≤
        s.active + s.woken.length := by
      rw [length_append]
      omega
    have fewer' : ((s.active - 1 : Nat) : ℚ) + (s.woken ++ s.waiters.take 1).length ≤
        s.active + s.woken.length := by exact_mod_cast fewer
    exact fewer'.trans room

/-! The queue. -/

def Event.isRelease : Event → Bool
  | .release _ => true
  | _ => false

def releases (events : List Event) : Nat := events.countP Event.isRelease

/-- A release takes the first of the queue out; nothing else moves those that wait. -/
theorem step_waiting {s t : Slots} {event : Event} {request k : Nat}
    (taken : step concurrency s event = some t)
    (waits : s.waiters[k + releases [event]]? = some request) : t.waiters[k]? = some request := by
  cases event with
  | acquire newcomer =>
    cases taken
    unfold acquire
    split
    · exact waits
    · exact (getElem?_append_left (List.getElem?_eq_some_iff.mp waits).1).trans waits
  | resume other =>
    obtain ⟨-, same⟩ := Option.ite_none_right_eq_some.mp taken
    cases same
    exact waits
  | release other =>
    obtain ⟨-, same⟩ := Option.ite_none_right_eq_some.mp taken
    cases same
    have second : s.waiters[k + 1]? = some request := waits
    rw [Nat.add_comm] at second
    exact getElem?_drop.trans second

theorem run_waiting {s t : Slots} {events : List Event} {request k : Nat}
    (reached : run (step concurrency) s events = some t)
    (waits : s.waiters[k + releases events]? = some request) : t.waiters[k]? = some request := by
  induction events generalizing s with
  | nil =>
    cases reached
    exact waits
  | cons event rest ih =>
    obtain ⟨u, first, later⟩ := run_cons _ reached
    apply ih later
    apply step_waiting first
    have both : releases (event :: rest) = releases rest + releases [event] := by
      rw [← singleton_append, releases, countP_append, Nat.add_comm]
      rfl
    rw [Nat.add_assoc, ← both]
    exact waits

variable (concurrency) in
/-- A waiter is resolved by the release that comes after one for each of those ahead of it. -/
def Served (s : Slots) : Prop :=
  ∀ k request, s.waiters[k]? = some request → ∀ events t, run (step concurrency) s events = some t →
    releases events = k → ∀ finished u, step concurrency t (.release finished) = some u →
      u.woken = t.woken ++ [request]

theorem served (s : Slots) : Served concurrency s := by
  intro k request waits events t reached many finished u taken
  obtain ⟨-, same⟩ := Option.ite_none_right_eq_some.mp taken
  cases same
  have first : t.waiters[0]? = some request := by
    apply run_waiting reached
    rw [Nat.zero_add, many]
    exact waits
  cases queue : t.waiters with
  | nil =>
    rw [queue] at first
    cases first
  | cons front rest =>
    rw [queue] at first
    cases first
    simp [release, queue]

end Service

section Runs

variable (configured : ℚ) (events : List Event) (t : Slots)
  (reached : run (step (thumbnailGenerationConcurrency configured)) idle events = some t)

theorem idle_counted (concurrency : ℚ) : Counted concurrency idle :=
  ⟨rfl, fun waiting => absurd rfl waiting⟩

theorem idle_within : Within (thumbnailGenerationConcurrency configured) idle := by
  show ((0 : Nat) : ℚ) + ((0 : Nat) : ℚ) ≤ max 1 _
  have one : (1 : ℚ) ≤ max 1 (min 4 configured) := le_max_left _ _
  push_cast
  linarith

include reached in
/-- As long as no newcomer slips in ahead of a waiter that was resolved, and none takes the fraction
of a place, no more hold a place than were configured. Whatever slips in, nobody waits while a place
is free, who waits is served in turn, and the counter ends at zero. -/
theorem places_kept (spared : Allowed (step (thumbnailGenerationConcurrency configured))
      (Spared (thumbnailGenerationConcurrency configured)) idle events) :
    t.holding.length ≤ thumbnailGenerationConcurrency configured ∧
    (t.waiters ≠ [] →
      thumbnailGenerationConcurrency configured ≤ t.holding.length + t.woken.length) ∧
    Served (thumbnailGenerationConcurrency configured) t ∧
    (t.holding = [] → t.active = 0) := by
  obtain ⟨counted, room⟩ := run_invariant _ step_within idle t events spared
    ⟨idle_counted _, idle_within configured⟩ reached
  have resolved : (0 : ℚ) ≤ t.woken.length := Nat.cast_nonneg _
  rw [← counted.active]
  refine ⟨?_, counted.full, served t, ?_⟩
  · unfold Within at room
    linarith
  · intro none
    rw [counted.active, none]
    rfl

end Runs

def inTurn : List Event :=
  [.acquire 0, .acquire 1, .acquire 2, .release 0, .resume 2]

theorem inTurn_kept : (((⟨2, [], [], [2, 1]⟩ : Slots).holding.length : ℚ) ≤
    thumbnailGenerationConcurrency 2) :=
  (places_kept 2 inTurn ⟨2, [], [], [2, 1]⟩ (by decide +kernel)
    (allowedBy_allowed _ _ _ _ (by decide +kernel))).1

/-- The place that a release gives up is taken before the waiter that it resolved runs on. -/
theorem newcomer_slips_in : ∃ events t,
    run (step (thumbnailGenerationConcurrency 2)) idle events = some t ∧
      thumbnailGenerationConcurrency 2 < t.holding.length :=
  ⟨[.acquire 0, .acquire 1, .acquire 2, .release 0, .acquire 3, .resume 2],
    ⟨3, [], [], [2, 3, 1]⟩, by decide +kernel, by decide +kernel⟩

end DracVms.ThumbnailSlots
