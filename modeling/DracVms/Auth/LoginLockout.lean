import DracVms.Auth.AuthService

namespace DracVms.LoginLockout

open List

open Json (Text)
open JsString (trim)
open AuthService
open Interleaving (Always GrowsBy always_cons count_calls growsBy_cons growsBy_self resumesIf)

/-- Between two expiries of a lockout no more than `max` passwords are evaluated. -/
def Bounded (max : ℕ) (timeline : List Mark) : Prop :=
  ∀ after during before, timeline = after ++ during ++ before → .expired ∉ during →
    during.count .evaluated ≤ max

/-- The passwords that were evaluated since the latest expiry. -/
def recent (timeline : List Mark) : ℕ := (timeline.takeWhile (· ≠ .expired)).count .evaluated

/-- The failures that are counted at present under any of the names. -/
def failures (names : List Text) (s : Account) : ℕ :=
  (names.map fun username => (attemptsOf s username).count).sum

def lockedOut (names : List Text) (s : Account) : Bool := names.any (isLocked s)

/-- A login under one of the names that has passed the lock and has not compared a password yet. -/
def guesses (names : List Text) : Call → Bool
  | .loginSettings username _ => decide (username ∈ names)
  | .loginUser username _ _ => decide (username ∈ names)
  | .loginCompare username _ _ _ _ => decide (username ∈ names)
  | _ => false

/-- The name under which a call is about to compare a password. -/
def comparing : Call → Option Text
  | .loginCompare username _ _ _ _ => some username
  | _ => none

section Conditions

variable (runtime : Runtime)

/-- No password that is compared is the right one. -/
def failing (_ : Account) : Call → Answer → Prop
  | .loginCompare _ password _ user _, .done => runtime.compare password user.passwordHash = false
  | _, _ => True

/-- A login passes the lock only while none of the account's names is locked and the failures
counted under all of them, with the logins under way, are fewer than the configured maximum. -/
def withinBudget (s : State) : Event → Prop
  | .arrive (.login identifier _) =>
    let username := runtime.toLowerCase (trim identifier)
    let names := identifiers s.data.user
    username ∈ names → username ≠ [] → isLocked s.data username = false →
      lockedOut names s.data = false ∧
        failures names s.data + s.calls.countP (guesses names) < s.data.settings.maxLoginAttempts
  | _ => True

instance (s : Account) (call : Call) (answer : Answer) :
    Decidable (failing runtime s call answer) := by
  unfold failing
  split
  all_goals exact inferInstance

instance (s : State) (event : Event) : Decidable (withinBudget runtime s event) := by
  unfold withinBudget
  split
  all_goals exact inferInstance

end Conditions

theorem recent_expired (timeline : List Mark) : recent (.expired :: timeline) = 0 := by
  simp [recent]

theorem recent_evaluated (timeline : List Mark) :
    recent (.evaluated :: timeline) = recent timeline + 1 := by
  simp [recent]

theorem recent_other {mark : Mark} (plain : mark ≠ .evaluated) (open_ : mark ≠ .expired)
    (timeline : List Mark) : recent (mark :: timeline) = recent timeline := by
  unfold recent
  rw [takeWhile_cons, if_pos (decide_eq_true open_), count_cons_of_ne plain]

theorem count_le_recent {during : List Mark} (open_ : .expired ∉ during) (before : List Mark) :
    during.count .evaluated ≤ recent (during ++ before) := by
  unfold recent
  rw [takeWhile_append_of_pos]
  · rw [count_append]
    omega
  · intro mark member
    apply decide_eq_true
    intro same
    exact open_ (same ▸ member)

def RecentAtMost (max : ℕ) (mark : Mark) (before : List Mark) : Prop :=
  recent (mark :: before) ≤ max

theorem bounded_of_recent {max : ℕ} {timeline : List Mark}
    (always : Always (RecentAtMost max) timeline) : Bounded max timeline := by
  intro after during before split open_
  cases during with
  | nil => exact Nat.zero_le max
  | cons mark rest =>
    have here := always after mark (rest ++ before) (by rw [split]; simp)
    have counted := count_le_recent open_ before
    exact Nat.le_trans counted here

section Registering

variable {names : List Text} {s : Account} {username : Text} {maxAttempts : ℕ}

theorem attemptsOf_register (other : Text) :
    attemptsOf (registerFailedAttempt s username maxAttempts) other =
      if other = username then
        if maxAttempts ≤ (attemptsOf s username).count + 1 then
          { count := 0, lockedUntil := s.now + lockoutMs }
        else { attemptsOf s username with count := (attemptsOf s username).count + 1 }
      else attemptsOf s other := by
  rw [attemptsOf, registerFailedAttempt, KeyedTable.get_put]
  by_cases same : other = username
  · rw [if_pos same, if_pos same]
    rfl
  · rw [if_neg same, if_neg same]
    rfl

theorem register_counts
    (free : lockedOut names (registerFailedAttempt s username maxAttempts) = false) :
    lockedOut names s = false ∧
      failures names s ≤ failures names (registerFailedAttempt s username maxAttempts) ∧
      (username ∈ names →
        failures names s + 1 ≤ failures names (registerFailedAttempt s username maxAttempts)) := by
  have unlocked : ∀ name ∈ names,
      isLocked (registerFailedAttempt s username maxAttempts) name = false := by
    intro name listed
    rw [lockedOut, any_eq_false] at free
    exact Bool.eq_false_iff.mpr (free name listed)
  have counts : username ∈ names → ¬ maxAttempts ≤ (attemptsOf s username).count + 1 := by
    intro listed locks
    have shut := unlocked username listed
    rw [isLocked, attemptsOf_register, if_pos rfl, if_pos locks, decide_eq_false_iff_not] at shut
    apply shut
    exact Nat.lt_add_of_pos_right (by decide)
  have same : ∀ name ∈ names,
      (attemptsOf (registerFailedAttempt s username maxAttempts) name).lockedUntil =
          (attemptsOf s name).lockedUntil ∧
        (attemptsOf (registerFailedAttempt s username maxAttempts) name).count =
          (attemptsOf s name).count + if name = username then 1 else 0 := by
    intro name listed
    rw [attemptsOf_register]
    by_cases own : name = username
    · rw [if_pos own, if_pos own, own]
      rw [own] at listed
      rw [if_neg (counts listed)]
      exact ⟨rfl, rfl⟩
    · rw [if_neg own, if_neg own]
      exact ⟨rfl, rfl⟩
  refine ⟨?_, ?_, ?_⟩
  · rw [lockedOut, any_eq_false]
    intro name listed locked
    have shut := unlocked name listed
    rw [isLocked, (same name listed).1] at shut
    exact absurd (shut.symm.trans locked) Bool.false_ne_true
  · apply sum_le_sum
    intro name listed
    rw [(same name listed).2]
    exact Nat.le_add_right _ _
  · intro listed
    apply Nat.succ_le_of_lt
    apply sum_lt_sum
    · intro name member
      rw [(same name member).2]
      exact Nat.le_add_right _ _
    · refine ⟨username, listed, ?_⟩
      rw [(same username listed).2, if_pos rfl]
      exact Nat.lt_succ_self _

end Registering

section Invariant

variable (names : List Text) (max : ℕ)

structure Within (s : State) : Prop where
  settings : s.data.settings.maxLoginAttempts = max
  known : identifiers s.data.user = names
  compared : ∀ call ∈ s.calls, ∀ username, comparing call = some username → username ∈ names
  past : Always (RecentAtMost max) s.data.timeline
  room : recent s.data.timeline + s.calls.countP (guesses names) ≤ max
  counted : lockedOut names s.data = false → recent s.data.timeline ≤ failures names s.data

/-- A step that neither concerns attempts nor the clock. -/
structure Spares (s t : Account) : Prop where
  settings : t.settings = s.settings
  known : identifiers t.user = identifiers s.user
  attempts : t.loginAttempts = s.loginAttempts
  now : t.now = s.now
  timeline : GrowsBy (fun mark => mark ≠ .evaluated ∧ mark ≠ .expired) s.timeline t.timeline

end Invariant

theorem spares_self (s : Account) : Spares s s where
  settings := rfl
  known := rfl
  attempts := rfl
  now := rfl
  timeline := growsBy_self

section Spares

variable {s t : Account} (spares : Spares s t)

include spares

theorem Spares.recent_eq : recent t.timeline = recent s.timeline := by
  obtain ⟨marks, split, plain⟩ := spares.timeline
  rw [split]
  clear split
  induction marks with
  | nil => rfl
  | cons mark rest ih =>
    obtain ⟨unevaluated, unexpired⟩ := plain mark mem_cons_self
    rw [cons_append, recent_other unevaluated unexpired]
    exact ih fun other member => plain other (mem_cons_of_mem _ member)

theorem Spares.past {max : ℕ} (past : Always (RecentAtMost max) s.timeline)
    (room : recent s.timeline ≤ max) : Always (RecentAtMost max) t.timeline := by
  obtain ⟨marks, split, plain⟩ := spares.timeline
  have same := spares.recent_eq
  rw [split] at same ⊢
  clear split
  induction marks with
  | nil => exact past
  | cons mark rest ih =>
    obtain ⟨unevaluated, unexpired⟩ := plain mark mem_cons_self
    rw [cons_append, recent_other unevaluated unexpired] at same
    rw [cons_append, always_cons]
    refine ⟨?_, ih (fun other member => plain other (mem_cons_of_mem _ member)) same⟩
    rw [RecentAtMost, recent_other unevaluated unexpired, same]
    exact room

theorem Spares.failures_eq (names : List Text) : failures names t = failures names s := by
  unfold failures attemptsOf
  rw [spares.attempts]

theorem Spares.lockedOut_eq (names : List Text) : lockedOut names t = lockedOut names s := by
  unfold lockedOut isLocked attemptsOf
  rw [spares.attempts, spares.now]

end Spares

/-- The logins under way as far as they still have a password to compare. -/
def weight (names : List Text) (next : Option Call) : ℕ := next.toList.countP (guesses names)

theorem guesses_resumed (names : List Text) {calls : List Call} {place : ℕ} {call : Call}
    (waiting : calls[place]? = some call) (next : Option Call) :
    (next.toList ++ calls.eraseIdx place).countP (guesses names) + weight names (some call) =
      calls.countP (guesses names) + weight names next := by
  have apart := count_calls (guesses names) waiting
  have own : weight names (some call) = if guesses names call = true then 1 else 0 :=
    countP_singleton
  rw [countP_append, own, apart, weight]
  omega

section Steps

variable {names : List Text} {max : ℕ} {s : State} (within : Within names max s)

include within

theorem Within.enough : recent s.data.timeline ≤ max := by
  have room := within.room
  omega

variable {place : ℕ} {next : Option Call}

theorem Within.others (follows : ∀ username, next.bind comparing = some username → username ∈ names) :
    ∀ call ∈ next.toList ++ s.calls.eraseIdx place, ∀ username,
      comparing call = some username → username ∈ names := by
  intro call member username compares
  rcases mem_append.mp member with fresh | waiting
  · apply follows
    rw [Option.mem_toList.mp fresh]
    exact compares
  · exact within.compared call (mem_of_mem_eraseIdx waiting) username compares

variable {call : Call}

/-- A call goes on without a word about attempts. -/
theorem Within.spared (waiting : s.calls[place]? = some call) {data : Account}
    (spares : Spares s.data data) (lighter : weight names next ≤ weight names (some call))
    (follows : ∀ username, next.bind comparing = some username → username ∈ names) :
    Within names max { data := data, calls := next.toList ++ s.calls.eraseIdx place } where
  settings := by rw [spares.settings, within.settings]
  known := by rw [spares.known, within.known]
  compared := within.others follows
  past := spares.past within.past within.enough
  room := by
    have count := guesses_resumed names waiting next
    have room := within.room
    rw [spares.recent_eq]
    dsimp only
    omega
  counted := by
    intro free
    rw [spares.lockedOut_eq] at free
    rw [spares.recent_eq, spares.failures_eq]
    exact within.counted free

/-- A call ends with a failure that is counted without a password. -/
theorem Within.registered (waiting : s.calls[place]? = some call) (username : Text)
    (maxAttempts : ℕ) : Within names max
      { data := registerFailedAttempt s.data username maxAttempts
        calls := s.calls.eraseIdx place } where
  settings := within.settings
  known := within.known
  compared call member := within.compared call (mem_of_mem_eraseIdx member)
  past := within.past
  room := by
    have count := count_calls (guesses names) waiting
    have room := within.room
    show recent s.data.timeline + (s.calls.eraseIdx place).countP (guesses names) ≤ max
    omega
  counted := by
    intro free
    obtain ⟨before, grows, _⟩ := register_counts free
    exact Nat.le_trans (within.counted before) grows

theorem Within.evaluated {username password : Text} {maxAttempts readAt : ℕ} {user : User}
    (waiting : s.calls[place]? = some (.loginCompare username password maxAttempts user readAt)) :
    Within names max
      { data := registerFailedAttempt (record s.data .evaluated) username maxAttempts
        calls := s.calls.eraseIdx place } := by
  have listed := within.compared _ (List.mem_of_getElem? waiting) username rfl
  have guess : guesses names (.loginCompare username password maxAttempts user readAt) = true :=
    decide_eq_true listed
  have count := count_calls (guesses names) waiting
  rw [if_pos guess] at count
  have room := within.room
  have more : recent (.evaluated :: s.data.timeline) = recent s.data.timeline + 1 :=
    recent_evaluated s.data.timeline
  exact {
    settings := within.settings
    known := within.known
    compared := fun call member => within.compared call (mem_of_mem_eraseIdx member)
    past := by
      apply always_cons.mpr ⟨_, within.past⟩
      rw [RecentAtMost, more]
      omega
    room := by
      show recent (.evaluated :: s.data.timeline) +
        (s.calls.eraseIdx place).countP (guesses names) ≤ max
      omega
    counted := by
      intro free
      obtain ⟨before, _, grows⟩ := register_counts free
      have earlier := within.counted before
      have counted := grows listed
      show recent (.evaluated :: s.data.timeline) ≤ _
      rw [more]
      exact Nat.le_trans (Nat.succ_le_succ earlier) counted }

theorem Within.resumed {runtime : Runtime} {answer : Answer} {data : Account}
    (waiting : s.calls[place]? = some call) (fails : failing runtime s.data call answer)
    (taken : resume runtime s.data call answer = some (data, next)) :
    Within names max { data := data, calls := next.toList ++ s.calls.eraseIdx place } := by
  have same := spares_self s.data
  have nothing : ∀ username, (none : Option Text) = some username → username ∈ names := by
    intro username none
    cases none
  cases resume_cases runtime taken with
  | abandoned => exact within.spared waiting same (Nat.zero_le _) nothing
  | loginSettings => exact within.spared waiting same (Nat.le_refl _) nothing
  | loginUser username password maxAttempts =>
    unfold foundUser
    cases found : findUser s.data username with
    | none => exact within.registered waiting username maxAttempts
    | some user =>
      by_cases active : user.isActive = true
      · simp only [active, if_true]
        have lighter : weight names
            (some (.loginCompare username password maxAttempts user s.data.increments)) ≤
            weight names (some (.loginUser username password maxAttempts)) := Nat.le_refl _
        apply within.spared waiting same lighter
        intro name compares
        cases compares
        unfold findUser at found
        split at found
        · rename_i named
          rw [← within.known, identifiers, mem_dedup]
          rcases named with first | second
          · rw [first]
            exact mem_cons_self
          · rw [second]
            exact mem_cons_of_mem _ mem_cons_self
        · cases found
      · simp only [active]
        exact within.registered waiting username maxAttempts
  | loginCompare username password maxAttempts user readAt =>
    have wrong : runtime.compare password user.passwordHash = false := fails
    unfold comparedPassword
    simp only [wrong, Bool.false_eq_true, if_false]
    exact within.evaluated waiting
  | loginSession user readAt id token =>
    exact within.spared waiting
      { same with timeline := growsBy_cons (by simp) }
      (Nat.zero_le _) nothing
  | loginPurge => exact within.spared waiting { same with } (Nat.zero_le _) nothing
  | refreshFind tokenHash now =>
    unfold foundSession
    split
    · split
      all_goals exact within.spared waiting same (Nat.zero_le _) nothing
    · exact within.spared waiting same (Nat.zero_le _) nothing
  | refreshRotate tokenHash now session user readAt id token =>
    have spares : Spares s.data (rotateSession runtime s.data tokenHash now session user readAt
        (runtime.sha256 token)) := by
      unfold rotateSession
      dsimp only
      split
      · exact {
          same with
          timeline := ⟨[.issued (accessPayload user) _ readAt, .exchanged tokenHash], rfl,
            by simp⟩ }
      · exact { same with }
    exact within.spared waiting spares (Nat.zero_le _) nothing
  | logoutIncrement => exact within.spared waiting { same with } (Nat.zero_le _) nothing
  | logoutRevoke now increment =>
    exact within.spared waiting { same with timeline := growsBy_cons (by simp) }
      (Nat.zero_le _) nothing
  | forgotFind email next goesOn =>
    rcases mem_pair.mp goesOn with stops | stores
    · rw [stops]
      exact within.spared waiting same (Nat.zero_le _) nothing
    · rw [stores]
      exact within.spared waiting same (Nat.zero_le _) nothing
  | forgotUpdate id token =>
    exact within.spared waiting
      { same with timeline := growsBy_cons (by simp) }
      (Nat.zero_le _) nothing
  | resetRefused | resetFind | resetWeak | resetStrength | resetHash =>
    exact within.spared waiting same (Nat.zero_le _) nothing
  | resetUpdate tokenHash =>
    exact within.spared waiting
      { same with timeline := growsBy_cons (by simp) } (Nat.zero_le _) nothing

/-- Time passes: either a lockout expires, or every lockout goes on. -/
theorem Within.ticked (elapsed : ℕ) :
    Within names max { data := tick s.data elapsed, calls := s.calls } := by
  have room := within.room
  unfold tick
  dsimp only
  by_cases expires : lockoutExpires s.data (s.data.now + elapsed) = true
  · rw [if_pos expires]
    have none : recent (.expired :: s.data.timeline) = 0 := recent_expired s.data.timeline
    exact {
      settings := within.settings
      known := within.known
      compared := within.compared
      past := by
        apply always_cons.mpr ⟨_, within.past⟩
        exact Nat.zero_le max
      room := by
        show recent (.expired :: s.data.timeline) + s.calls.countP (guesses names) ≤ max
        omega
      counted := by
        intro _
        show recent (.expired :: s.data.timeline) ≤ _
        exact Nat.zero_le _ }
  · rw [if_neg expires]
    exact {
      settings := within.settings
      known := within.known
      compared := within.compared
      past := within.past
      room := within.room
      counted := by
        intro free
        apply within.counted
        rw [lockedOut, any_eq_false] at free ⊢
        intro name listed locked
        apply free name listed
        rw [lockoutExpires, within.known, any_eq_true] at expires
        apply decide_eq_true
        by_contra ended
        apply expires
        refine ⟨name, listed, ?_⟩
        rw [Bool.and_eq_true]
        exact ⟨locked, decide_eq_true (Nat.le_of_not_lt ended)⟩ }

/-- A login that passes the lock takes one of the places that are left. -/
theorem Within.admitted {username password : Text}
    (open_ : username ∈ names → lockedOut names s.data = false ∧
      failures names s.data + s.calls.countP (guesses names) < max) :
    Within names max { data := s.data, calls := .loginSettings username password :: s.calls } where
  settings := within.settings
  known := within.known
  compared := by
    intro call member name compares
    rcases mem_cons.mp member with new | old
    · rw [new] at compares
      cases compares
    · exact within.compared call old name compares
  past := within.past
  room := by
    have room := within.room
    show recent s.data.timeline + List.countP (guesses names) (_ :: s.calls) ≤ max
    rw [countP_cons]
    by_cases listed : username ∈ names
    · obtain ⟨free, left⟩ := open_ listed
      have counted := within.counted free
      split <;> omega
    · rw [if_neg (show ¬ guesses names (.loginSettings username password) = true by
        simp [guesses, listed])]
      omega
  counted := within.counted

theorem Within.waits (plain : guesses names call = false) (free : comparing call = none) :
    Within names max { data := s.data, calls := call :: s.calls } where
  settings := within.settings
  known := within.known
  compared := by
    intro other member name compares
    rcases mem_cons.mp member with new | old
    · rw [new, free] at compares
      cases compares
    · exact within.compared other old name compares
  past := within.past
  room := by
    rw [countP_cons, plain]
    exact within.room
  counted := within.counted

end Steps

section Runs

variable (runtime : Runtime)

theorem step_within {names : List Text} {max : ℕ} {s t : State} {event : Event}
    (within : Within names max s) (fails : resumesIf (failing runtime) s event)
    (budget : withinBudget runtime s event) (taken : step runtime s event = some t) :
    Within names max t := by
  cases event with
  | arrive request =>
    cases taken
    cases request with
    | login identifier password =>
      have settings := within.settings
      have known := within.known
      simp only [withinBudget, known, settings] at budget
      simp only [service, arrive]
      split
      · exact within
      · rename_i named
        split
        · exact within
        · rename_i shut
          apply within.admitted
          intro listed
          exact budget listed named (Bool.eq_false_iff.mpr shut)
    | refreshSession | logout | forgotPassword | resetPassword => exact within.waits rfl rfl
    | tick elapsed => exact within.ticked elapsed
  | resume place answer =>
    obtain ⟨call, data, next, waiting, resumed, same⟩ := Interleaving.step_resume _ taken
    subst same
    exact within.resumed waiting (fails call waiting) resumed

theorem started_within (user : User) (settings : Settings) (now : Database.Instant) :
    Within (identifiers user) settings.maxLoginAttempts (started user settings now) := by
  have none : recent (created user settings now).timeline = 0 := by
    cases stored : user.resetTokenHash <;> simp [created, recent, stored]
  exact {
    settings := rfl
    known := rfl
    compared := by
      intro call none
      cases none
    past := by
      intro after mark before split
      have counted : recent (mark :: before) = 0 := by
        cases stored : user.resetTokenHash with
        | none =>
          simp [started, created, stored] at split
        | some tokenHash =>
          simp only [started, created, stored, Option.map_some, Option.toList_some] at split
          cases after with
          | nil =>
            cases split
            rfl
          | cons first rest => simp at split
      rw [RecentAtMost, counted]
      exact Nat.zero_le _
    room := by
      show recent (created user settings now).timeline + 0 ≤ _
      rw [none]
      exact Nat.zero_le _
    counted := by
      intro _
      show recent (created user settings now).timeline ≤ _
      rw [none]
      exact Nat.zero_le _ }

/-- Wrong passwords cannot outnumber the configured maximum between two expiries as long as every
login passes the lock within the account's budget. -/
theorem lockout_bounds_guessing (user : User) (settings : Settings) (now : Database.Instant)
    (events : List Event) (s : State)
    (reached : Runs.run (step runtime) (started user settings now) events = some s)
    (fails : Runs.Allowed (step runtime) (resumesIf (failing runtime))
      (started user settings now) events)
    (budget : Runs.Allowed (step runtime) (withinBudget runtime) (started user settings now) events) :
    Bounded settings.maxLoginAttempts s.data.timeline := by
  have preserves : Runs.Preserves (step runtime)
      (fun s event => resumesIf (failing runtime) s event ∧ withinBudget runtime s event)
      (Within (identifiers user) settings.maxLoginAttempts) := by
    intro u event t both within taken
    exact step_within runtime within both.1 both.2 taken
  have within := Runs.run_invariant (step runtime) preserves _ s events
    (Runs.Allowed.both (step runtime) fails budget) (started_within user settings now) reached
  exact bounded_of_recent within.past

end Runs

def cautious : Settings := { maxLoginAttempts := 3, requireStrongPassword := false }

/-- A login that is waited for, with a wrong password. -/
def wrongLogin (identifier : Text) : List Event :=
  [.arrive (.login identifier "guess".toList), .resume 0 .done, .resume 0 .done, .resume 0 .done]

/-- Under one name, until it is locked, and once more after the lockout. -/
def oneName : List Event :=
  wrongLogin "ana".toList ++ wrongLogin "Ana ".toList ++ wrongLogin "ana".toList ++
    [.arrive (.login "ana".toList "guess".toList), .arrive (.tick lockoutMs)] ++
    wrongLogin "ana".toList

theorem oneName_bounded : ∃ s, Runs.run (step plain) (started ana cautious 0) oneName = some s ∧
    Bounded cautious.maxLoginAttempts s.data.timeline := by
  have some_ : (Runs.run (step plain) (started ana cautious 0) oneName).isSome := by
    decide +kernel
  obtain ⟨s, reached⟩ := Option.isSome_iff_exists.mp some_
  refine ⟨s, reached, lockout_bounds_guessing plain ana cautious 0 oneName s reached ?_ ?_⟩
  all_goals
    apply Runs.allowedBy_allowed
    decide +kernel

/-- Under the user name until it is locked, and then under the e-mail. -/
def twoNames : List Event :=
  wrongLogin "ana".toList ++ wrongLogin "ana".toList ++ wrongLogin "ana".toList ++
    wrongLogin "ana@x".toList

theorem twoNames_unbounded : ∃ s,
    Runs.run (step plain) (started ana cautious 0) twoNames = some s ∧
    Runs.Allowed (step plain) (resumesIf (failing plain)) (started ana cautious 0) twoNames ∧
    ¬ Bounded cautious.maxLoginAttempts s.data.timeline := by
  have marks : (Runs.run (step plain) (started ana cautious 0) twoNames).map
      (fun s => s.data.timeline) = some (List.replicate 4 .evaluated) := by
    decide +kernel
  obtain ⟨s, reached, timeline⟩ := Option.map_eq_some_iff.mp marks
  refine ⟨s, reached, ?_, ?_⟩
  · apply Runs.allowedBy_allowed
    decide +kernel
  · intro bounded
    have few := bounded [] (List.replicate 4 .evaluated) []
      (by rw [timeline, nil_append, append_nil]) (by decide)
    exact absurd few (by decide)

end DracVms.LoginLockout
