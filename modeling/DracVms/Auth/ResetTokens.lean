import DracVms.Auth.AuthService

namespace DracVms.ResetTokens

open List

open Json (Text)
open Database (Instant)
open AuthService
open Interleaving (Always GrowsBy Guarantees Holds Outline always_cons always_free growsBy_cons
  growsBy_self owned_none owned_some resumesIf)

/-- The reset token that is of no use from then on. -/
def spends : Mark → Option Text
  | .requested _ replaced => replaced
  | .changed tokenHash _ => some tokenHash
  | _ => none

/-- A password is changed with a token that no reset has consumed and no later request has
replaced. -/
def ChangedUnspent (mark : Mark) (before : List Mark) : Prop :=
  ∀ tokenHash increment, mark = .changed tokenHash increment →
    ∀ earlier ∈ before, spends earlier ≠ some tokenHash

def SingleUse (s : Account) : Prop := Always ChangedUnspent s.timeline

def Spent (s : Account) (tokenHash : Text) : Prop :=
  ∃ mark ∈ s.timeline, spends mark = some tokenHash

/-- A reset comes to its update while the user's row still holds the token that was looked up. -/
def stillStored (s : Account) : Call → Answer → Prop
  | .resetUpdate tokenHash _, .done => s.user.resetTokenHash = some tokenHash
  | _, _ => True

instance (s : Account) (call : Call) (answer : Answer) : Decidable (stillStored s call answer) := by
  unfold stillStored
  split
  all_goals exact inferInstance

structure Sound (s : Account) : Prop where
  single : SingleUse s
  unspent : ∀ tokenHash, s.user.resetTokenHash = some tokenHash → ¬ Spent s tokenHash
  stored : ∀ tokenHash, s.user.resetTokenHash = some tokenHash → tokenHash ∈ requestedHashes s
  spent : ∀ tokenHash, Spent s tokenHash → tokenHash ∈ requestedHashes s

/-- The token of a reset under way was stored when it was looked up. -/
def Held (s : Account) (tokenHash : Text) : Prop :=
  s.user.resetTokenHash = some tokenHash ∨ Spent s tokenHash

def Own (s : Account) : Call → Prop
  | .resetStrength tokenHash _ => Held s tokenHash
  | .resetHash tokenHash _ => Held s tokenHash
  | .resetUpdate tokenHash _ => Held s tokenHash
  | _ => True

theorem own_of_held {s t : Account} (held : ∀ tokenHash, Held s tokenHash → Held t tokenHash)
    (call : Call) (own : Own s call) : Own t call := by
  cases call with
  | resetStrength tokenHash | resetHash tokenHash | resetUpdate tokenHash =>
    exact held tokenHash own
  | _ => trivial

theorem mem_requestedHashes {s : Account} {tokenHash : Text} :
    tokenHash ∈ requestedHashes s ↔ ∃ replaced, .requested tokenHash replaced ∈ s.timeline := by
  rw [requestedHashes, mem_filterMap]
  constructor
  · rintro ⟨mark, member, hash⟩
    cases mark with
    | requested stored replaced =>
      cases hash
      exact ⟨replaced, member⟩
    | _ => cases hash
  · rintro ⟨replaced, member⟩
    exact ⟨_, member, rfl⟩

/-- A mark that says nothing about reset tokens. -/
def aside : Mark → Bool
  | .requested _ _ => false
  | .changed _ _ => false
  | _ => true

/-- A step that does not concern reset tokens. -/
structure Aside (s t : Account) : Prop where
  stored : t.user.resetTokenHash = s.user.resetTokenHash
  timeline : GrowsBy (fun mark => aside mark = true) s.timeline t.timeline

theorem aside_of_quiet {s t : Account} (quiet : Quiet s t) : Aside s t where
  stored := by rw [quiet.user]
  timeline := by
    apply quiet.timeline.mono
    intro mark minor
    rcases minor with evaluated | expired
    · rw [evaluated]
      rfl
    · rw [expired]
      rfl

variable (tokenHash : Text)

section Aside

variable {s t : Account} (apart : Aside s t)

include apart

theorem Aside.mem {mark : Mark} (matters : aside mark = false) :
    mark ∈ t.timeline ↔ mark ∈ s.timeline :=
  apart.timeline.mem (Bool.eq_false_iff.mp matters)

theorem Aside.spent : Spent t tokenHash ↔ Spent s tokenHash := by
  have matters : ∀ mark, spends mark = some tokenHash → aside mark = false := by
    intro mark spent
    cases mark <;> first | rfl | cases spent
  constructor
  · rintro ⟨mark, member, spent⟩
    exact ⟨mark, (apart.mem (matters mark spent)).mp member, spent⟩
  · rintro ⟨mark, member, spent⟩
    exact ⟨mark, apart.timeline.subset member, spent⟩

theorem Aside.requested : tokenHash ∈ requestedHashes t ↔ tokenHash ∈ requestedHashes s := by
  rw [mem_requestedHashes, mem_requestedHashes]
  exact exists_congr fun replaced => apart.mem rfl

theorem Aside.single : SingleUse t ↔ SingleUse s := by
  apply apart.timeline.always
  intro mark before minor tokenHash increment same
  rw [same] at minor
  cases minor

theorem Aside.sound (sound : Sound s) : Sound t where
  single := apart.single.mpr sound.single
  unspent := by
    intro tokenHash stored
    rw [apart.stored] at stored
    rw [apart.spent]
    exact sound.unspent tokenHash stored
  stored := by
    intro tokenHash stored
    rw [apart.stored] at stored
    rw [apart.requested]
    exact sound.stored tokenHash stored
  spent := by
    intro tokenHash spent
    rw [apart.requested]
    exact sound.spent tokenHash ((apart.spent tokenHash).mp spent)

theorem Aside.held (held : Held s tokenHash) : Held t tokenHash := by
  unfold Held
  rw [apart.stored, apart.spent]
  exact held

theorem Aside.guarantees {next : Option Call} (sound : Sound s) (own : ∀ call ∈ next, Own t call) :
    Guarantees Sound Own s t next where
  shared := apart.sound sound
  own := own
  others := own_of_held apart.held

end Aside

section Steps

variable {s : Account} (sound : Sound s)

include sound

theorem store_guarantees {tokenHash : Text} (fresh : tokenHash ∉ requestedHashes s) :
    Guarantees Sound Own s (storeResetToken s tokenHash) none where
  shared := {
    single := by
      apply always_cons.mpr ⟨_, sound.single⟩
      intro changed increment same
      cases same
    unspent := by
      intro stored same
      cases same
      rintro ⟨mark, member, spent⟩
      rcases mem_cons.mp member with new | old
      · rw [new] at spent
        exact fresh (sound.stored tokenHash spent)
      · exact fresh (sound.spent tokenHash ⟨mark, old, spent⟩)
    stored := by
      intro stored same
      cases same
      exact mem_cons_self
    spent := by
      rintro spentHash ⟨mark, member, spent⟩
      apply mem_cons_of_mem
      rcases mem_cons.mp member with new | old
      · rw [new] at spent
        exact sound.stored spentHash spent
      · exact sound.spent spentHash ⟨mark, old, spent⟩ }
  own := owned_none
  others := by
    apply own_of_held
    intro heldHash held
    right
    rcases held with stored | ⟨mark, member, spent⟩
    · exact ⟨_, mem_cons_self, stored⟩
    · exact ⟨mark, mem_cons_of_mem _ member, spent⟩

theorem write_guarantees {tokenHash passwordHash : Text}
    (current : s.user.resetTokenHash = some tokenHash) :
    Guarantees Sound Own s (writePassword s tokenHash passwordHash) none where
  shared := {
    single := by
      apply always_cons.mpr ⟨_, sound.single⟩
      intro changed increment same earlier member spent
      cases same
      exact sound.unspent tokenHash current ⟨earlier, member, spent⟩
    unspent := by
      intro stored none
      cases none
    stored := by
      intro stored none
      cases none
    spent := by
      rintro spentHash ⟨mark, member, spent⟩
      rcases mem_cons.mp member with new | old
      · rw [new] at spent
        cases spent
        exact sound.stored tokenHash current
      · exact sound.spent spentHash ⟨mark, old, spent⟩ }
  own := owned_none
  others := by
    apply own_of_held
    intro heldHash held
    right
    rcases held with stored | ⟨mark, member, spent⟩
    · rw [current] at stored
      exact ⟨_, mem_cons_self, stored⟩
    · exact ⟨mark, mem_cons_of_mem _ member, spent⟩

end Steps

theorem write_single {s : Account} (sound : Sound s) {tokenHash passwordHash : Text}
    (held : Held s tokenHash) : SingleUse (writePassword s tokenHash passwordHash) ↔
      s.user.resetTokenHash = some tokenHash := by
  constructor
  · intro single
    rcases held with stored | ⟨mark, member, spent⟩
    · exact stored
    · exact absurd spent ((always_cons.mp single).1 tokenHash _ rfl mark member)
  · intro current
    exact (write_guarantees sound current).shared.single

section Effects

variable {runtime : Runtime} {s t : Account} {next : Option Call}

theorem arrive_own (request : Request) :
    ∀ call ∈ (arrive runtime s request).2, Own (arrive runtime s request).1 call := by
  cases request with
  | login identifier password =>
    simp only [arrive]
    split
    · exact owned_none
    · split
      · exact owned_none
      · exact owned_some trivial
  | refreshSession | logout | forgotPassword | resetPassword => exact owned_some trivial
  | tick => exact owned_none

theorem foundUser_own (username password : Text) (maxAttempts : ℕ) :
    ∀ call ∈ (foundUser s username password maxAttempts).2, Own t call := by
  unfold foundUser
  split
  · split
    · exact owned_some trivial
    · exact owned_none
  · exact owned_none

theorem compared_own (username password : Text) (maxAttempts : ℕ) (user : User) (readAt : ℕ) :
    ∀ call ∈ (comparedPassword runtime s username password maxAttempts user readAt).2,
      Own t call := by
  unfold comparedPassword
  split
  · exact owned_some trivial
  · exact owned_none

theorem foundSession_own (now : Instant) : ∀ call ∈ foundSession s tokenHash now, Own t call := by
  unfold foundSession
  split
  · split
    · exact owned_none
    · exact owned_some trivial
  · exact owned_none

theorem aside_rotate (tokenHash nextHash : Text) (now : Instant) (session : AuthSession)
    (user : User) (readAt : ℕ) :
    Aside s (rotateSession runtime s tokenHash now session user readAt nextHash) := by
  unfold rotateSession
  dsimp only
  split
  · exact {
      stored := rfl
      timeline := ⟨[.issued (accessPayload user) nextHash readAt, .exchanged tokenHash], rfl,
        by simp [aside]⟩ }
  · exact { stored := rfl, timeline := growsBy_self }

/-- What one step means for the calls under way and for the tokens that changed a password so
far. -/
structure Effect (s t : Account) (next : Option Call) (allowed : Prop) : Prop where
  guarantees : allowed → Guarantees Sound Own s t next
  single : SingleUse t ↔ allowed

theorem aside_effect (sound : Sound s) (apart : Aside s t) (own : ∀ call ∈ next, Own t call) :
    Effect s t next True where
  guarantees _ := apart.guarantees sound own
  single := iff_of_true (apart.single.mpr sound.single) trivial

theorem resume_effect (sound : Sound s) {call : Call} {answer : Answer} (own : Own s call)
    (resumed : resume runtime s call answer = some (t, next)) :
    Effect s t next (stillStored s call answer) := by
  have same := aside_of_quiet (quiet_self s)
  cases resume_cases runtime resumed with
  | abandoned =>
    have free : stillStored s call .failed = True := by
      cases call <;> rfl
    rw [free]
    exact aside_effect sound same owned_none
  | loginSettings => exact aside_effect sound same (owned_some trivial)
  | loginUser username password maxAttempts =>
    exact aside_effect sound (aside_of_quiet (quiet_foundUser s username password maxAttempts))
      (foundUser_own username password maxAttempts)
  | loginCompare username password maxAttempts user readAt =>
    have quiet := quiet_comparedPassword runtime s username password maxAttempts user readAt
    exact aside_effect sound (aside_of_quiet quiet)
      (compared_own username password maxAttempts user readAt)
  | loginSession user readAt id token =>
    exact aside_effect sound
      { stored := rfl, timeline := growsBy_cons rfl }
      (owned_some trivial)
  | loginPurge =>
    exact aside_effect sound { stored := rfl, timeline := same.timeline } owned_none
  | refreshFind tokenHash now => exact aside_effect sound same (foundSession_own tokenHash now)
  | refreshRotate tokenHash now session user readAt =>
    exact aside_effect sound (aside_rotate tokenHash _ now session user readAt) owned_none
  | logoutIncrement =>
    exact aside_effect sound { stored := rfl, timeline := same.timeline } (owned_some trivial)
  | logoutRevoke now increment =>
    exact aside_effect sound { stored := rfl, timeline := growsBy_cons rfl } owned_none
  | forgotFind email next goesOn =>
    apply aside_effect sound same
    rcases mem_pair.mp goesOn with stops | stores
    · rw [stops]
      exact owned_none
    · rw [stores]
      exact owned_some trivial
  | forgotUpdate id token fresh =>
    have guarantees := store_guarantees sound fresh
    exact {
      guarantees := fun _ => guarantees
      single := iff_of_true guarantees.shared.single trivial }
  | resetRefused => exact aside_effect sound same owned_none
  | resetFind tokenHash newPassword stored =>
    exact aside_effect sound same (owned_some (Or.inl stored))
  | resetWeak => exact aside_effect sound same owned_none
  | resetStrength tokenHash newPassword answer =>
    have free : stillStored s (.resetStrength tokenHash newPassword) answer = True := by
      cases answer <;> rfl
    exact aside_effect sound same (owned_some own)
  | resetHash => exact aside_effect sound same (owned_some own)
  | resetUpdate tokenHash passwordHash =>
    exact {
      guarantees := fun current => write_guarantees sound current
      single := write_single sound own }

end Effects

section Runs

variable (runtime : Runtime)

theorem outline : Outline (service runtime) stillStored Sound Own where
  arrives s request sound :=
    (aside_of_quiet (quiet_arrive runtime s request)).guarantees sound (arrive_own request)
  resumes _ _ _ _ _ sound own allowed resumed :=
    (resume_effect sound own resumed).guarantees allowed

theorem created_sound (user : User) (settings : Settings) (now : Instant) :
    Sound (created user settings now) := by
  have only : ∀ mark ∈ (created user settings now).timeline, ∃ tokenHash,
      user.resetTokenHash = some tokenHash ∧ mark = .requested tokenHash none := by
    intro mark member
    obtain ⟨tokenHash, stored, same⟩ := Option.map_eq_some_iff.mp (Option.mem_toList.mp member)
    exact ⟨tokenHash, stored, same.symm⟩
  have nothing : ∀ tokenHash, ¬ Spent (created user settings now) tokenHash := by
    rintro tokenHash ⟨mark, member, spent⟩
    obtain ⟨_, _, same⟩ := only mark member
    rw [same] at spent
    cases spent
  exact {
    single := by
      apply always_free
      intro mark member before tokenHash increment same
      obtain ⟨_, _, requested⟩ := only mark member
      rw [requested] at same
      cases same
    unspent := fun tokenHash _ => nothing tokenHash
    stored := by
      intro tokenHash stored
      apply mem_requestedHashes.mpr
      refine ⟨none, ?_⟩
      change user.resetTokenHash = some tokenHash at stored
      simp only [created, stored, Option.map_some, Option.toList_some, mem_singleton]
    spent := fun tokenHash spent => absurd spent (nothing tokenHash) }

theorem step_single {s t : State} {event : Event} (holds : Holds Sound Own s)
    (taken : step runtime s event = some t) : (SingleUse t.data ↔ resumesIf stillStored s event) ∧
      (resumesIf stillStored s event → Holds Sound Own t) := by
  refine ⟨?_, fun allowed => (outline runtime).preserves s event t allowed holds taken⟩
  cases event with
  | arrive request =>
    cases taken
    have apart := aside_of_quiet (quiet_arrive runtime s.data request)
    exact iff_of_true (apart.single.mpr holds.shared.single) trivial
  | resume place answer =>
    obtain ⟨call, data, next, waiting, resumed, same⟩ := Interleaving.step_resume _ taken
    subst same
    have own := holds.own call (List.mem_of_getElem? waiting)
    rw [(resume_effect holds.shared own resumed).single]
    constructor
    · intro allowed other found
      rw [waiting] at found
      cases found
      exact allowed
    · intro allowed
      exact allowed call waiting

/-- Reset tokens are single-use all along a run exactly when each reset comes to its update while
the row still holds its token. -/
theorem reset_single_use_iff (user : User) (settings : Settings) (now : Instant)
    (events : List Event) (s : State)
    (reached : Runs.run (step runtime) (started user settings now) events = some s) :
    (∀ n t, Runs.run (step runtime) (started user settings now) (events.take n) = some t →
      SingleUse t.data) ↔
    Runs.Allowed (step runtime) (resumesIf stillStored) (started user settings now) events := by
  have starts : Holds Sound Own (started user settings now) := {
    shared := created_sound user settings now
    own := by
      intro call none
      cases none }
  apply Runs.prefixes_iff_kept (step runtime) (fun u (holds : Holds Sound Own u) =>
    holds.shared.single) _ s events _ starts reached
  intro u event _ t holds taken
  exact step_single runtime holds taken

end Runs

def requesting : List Event :=
  [.arrive (.forgotPassword "ana@x".toList), .resume 0 .done, .resume 0 (.drawn [] "r".toList)]

/-- A token is requested, used, and then tried again. -/
def usedAgain : List Event :=
  requesting ++
    [.arrive (.resetPassword "r".toList "second".toList), .resume 0 .done, .resume 0 .done,
      .resume 0 (.hashed "second".toList), .resume 0 .done,
      .arrive (.resetPassword "r".toList "third".toList), .resume 0 .done]

theorem usedAgain_single : ∃ s, Runs.run (step plain) (started ana usual 0) usedAgain = some s ∧
    ∀ n t, Runs.run (step plain) (started ana usual 0) (usedAgain.take n) = some t →
      SingleUse t.data := by
  have some_ : (Runs.run (step plain) (started ana usual 0) usedAgain).isSome := by
    decide +kernel
  obtain ⟨s, reached⟩ := Option.isSome_iff_exists.mp some_
  refine ⟨s, reached, (reset_single_use_iff plain ana usual 0 usedAgain s reached).mpr ?_⟩
  apply Runs.allowedBy_allowed
  decide +kernel

/-- Two resets look the same token up before either of them writes. -/
def usedTwice : List Event :=
  requesting ++
    [.arrive (.resetPassword "r".toList "second".toList), .resume 0 .done,
      .arrive (.resetPassword "r".toList "third".toList), .resume 0 .done, .resume 0 .done,
      .resume 0 (.hashed "third".toList), .resume 0 .done, .resume 0 .done,
      .resume 0 (.hashed "second".toList), .resume 0 .done]

theorem usedTwice_changes : ∃ s, Runs.run (step plain) (started ana usual 0) usedTwice = some s ∧
    s.data.user.passwordHash = "second".toList ∧ ¬ SingleUse s.data := by
  have marks : (Runs.run (step plain) (started ana usual 0) usedTwice).map
      (fun s => (s.data.timeline, s.data.user.passwordHash)) =
      some ([.changed "r".toList 2, .changed "r".toList 1, .requested "r".toList none],
        "second".toList) := by
    decide +kernel
  obtain ⟨s, reached, final⟩ := Option.map_eq_some_iff.mp marks
  obtain ⟨timeline, password⟩ := Prod.mk.inj final
  refine ⟨s, reached, password, ?_⟩
  intro single
  exact single [] _ _ timeline "r".toList 2 rfl (.changed "r".toList 1) mem_cons_self rfl

end DracVms.ResetTokens
