import DracVms.Central.RemoteOperations
import DracVms.Library.KeyedList

namespace DracVms.RemoteOperations

open List

open Json (Text)
open KeyedList (eq_of_key)

section ChangeFirst

variable (test : Operation → Bool)

theorem changeFirst_ids {change : Operation → Operation}
    (keeps : ∀ entry, (change entry).id = entry.id) (operations : List Operation) :
    (changeFirst test change operations).map Operation.id = operations.map Operation.id := by
  induction operations with
  | nil => rfl
  | cons entry rest ih =>
    unfold changeFirst
    split
    · simp only [map_cons, keeps]
    · simp only [map_cons, ih]

theorem mem_changeFirst {test : Operation → Bool} (change : Operation → Operation)
    {operations : List Operation} (distinct : (operations.map Operation.id).Nodup)
    {found : Operation} (first : operations.find? test = some found) (entry : Operation)
    (member : entry ∈ changeFirst test change operations) :
    entry = change found ∨ entry ∈ operations ∧ entry.id ≠ found.id := by
  induction operations with
  | nil => cases first
  | cons head rest ih =>
    have fresh := (nodup_cons.mp distinct).1
    have later := (nodup_cons.mp distinct).2
    unfold changeFirst at member
    by_cases hit : test head = true
    · rw [List.find?_cons_of_pos hit] at first
      cases first
      rw [if_pos hit] at member
      rcases mem_cons.mp member with same | behind
      · exact Or.inl same
      · refine Or.inr ⟨mem_cons_of_mem _ behind, ?_⟩
        intro same
        apply fresh
        rw [← same]
        exact mem_map_of_mem behind
    · rw [List.find?_cons_of_neg hit] at first
      rw [if_neg hit] at member
      rcases mem_cons.mp member with same | behind
      · refine Or.inr ⟨same ▸ mem_cons_self, ?_⟩
        intro clash
        apply fresh
        rw [← same, clash]
        exact mem_map_of_mem (List.mem_of_find?_eq_some first)
      · rcases ih later first behind with changed | ⟨kept, other⟩
        · exact Or.inl changed
        · exact Or.inr ⟨mem_cons_of_mem _ kept, other⟩

end ChangeFirst

theorem expireOne_cases (now : Instant) (operation : Operation) :
    expireOne now operation = operation ∨
      operation.status = .running ∧ (expireOne now operation).status = .timedOut := by
  unfold expireOne
  split
  · rename_i running expires
    split
    · exact Or.inl rfl
    · exact Or.inr ⟨running, rfl⟩
  · exact Or.inl rfl

theorem expireOne_id (now : Instant) (operation : Operation) :
    (expireOne now operation).id = operation.id := by
  unfold expireOne
  split
  · split <;> rfl
  · rfl

theorem expireTimedOut_ids (operations : List Operation) (now : Instant) :
    (expireTimedOut operations now).map Operation.id = operations.map Operation.id := by
  rw [expireTimedOut, map_map]
  apply map_congr_left
  intro operation _
  exact expireOne_id now operation

theorem active_iff (operation : Operation) :
    operation.active = true ↔ operation.status = .pending ∨ operation.status = .running := by
  simp only [Operation.active, Bool.or_eq_true, decide_eq_true_eq]

variable {operation : Operation} {operations : List Operation}

theorem mem_expireTimedOut {now : Instant} (member : operation ∈ expireTimedOut operations now) :
    operation ∈ operations ∨
      operation.active = false ∧ ∃ earlier ∈ operations, earlier.id = operation.id ∧
        earlier.status = .running := by
  obtain ⟨earlier, present, same⟩ := mem_map.mp member
  rcases expireOne_cases now earlier with alone | ⟨running, ended⟩
  · rw [← same, alone]
    exact Or.inl present
  · refine Or.inr ⟨?_, earlier, present, ?_, running⟩
    · rw [← same, Operation.active, ended]
      rfl
    · rw [← same, expireOne_id]

/-- What holds of an installation in every run. -/
structure Sound (installation : Installation) : Prop where
  distinct : (installation.operations.map Operation.id).Nodup
  drawn : ∀ operation ∈ installation.operations, operation.id < installation.nextId
  latest : ∀ operation ∈ installation.operations, operation.active = true →
    (installation.operations.map Operation.id).getLast? = some operation.id
  waiting : ∀ operation ∈ installation.operations, operation.status = .pending →
    operation.id ∉ installation.handed.map Prod.fst
  leased : ∀ operation ∈ installation.operations, operation.status = .running →
    ∃ token, operation.leaseToken = some token ∧ (operation.id, token) ∈ installation.handed
  unanswered : ∀ operation ∈ installation.operations, operation.active = true →
    operation.id ∉ installation.accepted.map Prod.fst
  handedDrawn : ∀ entry ∈ installation.handed, entry.1 < installation.nextId
  handedOnce : (installation.handed.map Prod.fst).Nodup
  acceptedOnce : (installation.accepted.map Prod.fst).Nodup
  own : ∀ entry ∈ installation.accepted, entry ∈ installation.handed

/-- What one step may do to the operations that were there. -/
structure Evolves (before later : Installation) : Prop where
  drawn : before.nextId ≤ later.nextId
  past : ∀ operation ∈ later.operations, operation.id < before.nextId →
    ∃ earlier ∈ before.operations, earlier.id = operation.id ∧
      (earlier.active = false → operation = earlier)

theorem Evolves.refl (installation : Installation) : Evolves installation installation where
  drawn := Nat.le_refl _
  past operation member _ := ⟨operation, member, rfl, fun _ => rfl⟩

theorem Evolves.trans {first second third : Installation} (before : Evolves first second)
    (later : Evolves second third) : Evolves first third where
  drawn := Nat.le_trans before.drawn later.drawn
  past operation member old := by
    have between := Nat.lt_of_lt_of_le old before.drawn
    obtain ⟨middle, present, same, settled⟩ := later.past operation member between
    obtain ⟨earlier, there, named, unchanged⟩ := before.past middle present (same ▸ old)
    refine ⟨earlier, there, named.trans same, ?_⟩
    intro final
    have kept := unchanged final
    rw [settled (kept ▸ final), kept]

/-- The results that one step accepts. -/
def Accepts (before later : Installation) : Prop :=
  ∀ entry ∈ later.accepted, entry ∉ before.accepted →
    ∃ operation ∈ before.operations, operation.id = entry.1 ∧ operation.status = .running ∧
      operation.leaseToken = some entry.2

structure Follows (before later : Installation) : Prop where
  sound : Sound later
  evolves : Evolves before later
  accepts : Accepts before later
  kept : ∀ operation ∈ before.operations, operation.active = true →
    operation.id ∈ later.operations.map Operation.id

variable {installation : Installation}

theorem Follows.refl (sound : Sound installation) : Follows installation installation where
  sound := sound
  evolves := Evolves.refl installation
  accepts _ member other := absurd member other
  kept _ member _ := mem_map_of_mem member

theorem sound_new : Sound Installation.new where
  distinct := nodup_nil
  drawn _ member := absurd member not_mem_nil
  latest _ member := absurd member not_mem_nil
  waiting _ member := absurd member not_mem_nil
  leased _ member := absurd member not_mem_nil
  unanswered _ member := absurd member not_mem_nil
  handedDrawn _ member := absurd member not_mem_nil
  handedOnce := nodup_nil
  acceptedOnce := nodup_nil
  own _ member := absurd member not_mem_nil

def expired (installation : Installation) (now : Instant) : Installation :=
  { installation with operations := expireTimedOut installation.operations now }

theorem pending_active (pending : operation.status = .pending) :
    operation.active = true := (active_iff operation).mpr (Or.inl pending)

theorem running_active (running : operation.status = .running) :
    operation.active = true := (active_iff operation).mpr (Or.inr running)

theorem active_expireTimedOut {now : Instant} (member : operation ∈ expireTimedOut operations now)
    (active : operation.active = true) : operation ∈ operations := by
  rcases mem_expireTimedOut member with same | ⟨final, _⟩
  · exact same
  · rw [active] at final
    cases final

theorem expired_follows (sound : Sound installation) (now : Instant) :
    Follows installation (expired installation now) where
  sound :=
    { distinct := by
        rw [expired, expireTimedOut_ids]
        exact sound.distinct
      drawn := by
        intro operation member
        rcases mem_expireTimedOut member with same | ⟨_, earlier, present, named, _⟩
        · exact sound.drawn operation same
        · rw [← named]
          exact sound.drawn earlier present
      latest := by
        intro operation member active
        rw [expired, expireTimedOut_ids]
        exact sound.latest operation (active_expireTimedOut member active) active
      waiting := by
        intro operation member pending
        have present := active_expireTimedOut member (pending_active pending)
        exact sound.waiting operation present pending
      leased := by
        intro operation member running
        have present := active_expireTimedOut member (running_active running)
        exact sound.leased operation present running
      unanswered := by
        intro operation member active
        exact sound.unanswered operation (active_expireTimedOut member active) active
      handedDrawn := sound.handedDrawn
      handedOnce := sound.handedOnce
      acceptedOnce := sound.acceptedOnce
      own := sound.own }
  evolves :=
    { drawn := Nat.le_refl _
      past := by
        intro operation member _
        rcases mem_expireTimedOut member with same | ⟨_, earlier, present, named, running⟩
        · exact ⟨operation, same, rfl, fun _ => rfl⟩
        · refine ⟨earlier, present, named, ?_⟩
          intro final
          rw [running_active running] at final
          cases final }
  accepts _ member other := absurd member other
  kept := by
    intro operation member _
    rw [expired, expireTimedOut_ids]
    exact mem_map_of_mem member

/-- The same, with an operation found by a claim in the hands of the agent. -/
def claimed (installation : Installation) (operation : Operation) (leaseToken : Text)
    (now : Instant) : Installation :=
  { installation with
    operations := changeFirst isPending (start leaseToken now) installation.operations
    handed := installation.handed ++ [(operation.id, leaseToken)] }

theorem claimed_follows (sound : Sound installation)
    (found : installation.operations.find? isPending = some operation) (leaseToken : Text)
    (now : Instant) : Follows installation (claimed installation operation leaseToken now) := by
  have present := List.mem_of_find?_eq_some found
  have waits := List.find?_some found
  have pending : operation.status = .pending := of_decide_eq_true waits
  have keeps : ∀ entry, (start leaseToken now entry).id = entry.id := fun _ => rfl
  have ids := changeFirst_ids isPending keeps installation.operations
  have entries := mem_changeFirst (start leaseToken now) sound.distinct found
  have unheld := sound.waiting operation present pending
  refine ⟨⟨?_, ?_, ?_, ?_, ?_, ?_, ?_, ?_, sound.acceptedOnce, ?_⟩, ⟨Nat.le_refl _, ?_⟩, ?_, ?_⟩
  · rw [claimed, ids]
    exact sound.distinct
  · intro entry member
    rcases entries entry member with rfl | ⟨same, _⟩
    · exact sound.drawn operation present
    · exact sound.drawn entry same
  · intro entry member active
    rw [claimed, ids]
    rcases entries entry member with rfl | ⟨same, _⟩
    · exact sound.latest operation present (pending_active pending)
    · exact sound.latest entry same active
  · intro entry member waits
    rcases entries entry member with rfl | ⟨same, other⟩
    · cases waits
    · have absent := sound.waiting entry same waits
      rw [claimed, map_append, mem_append]
      exact fun held => held.elim absent fun new => other (mem_singleton.mp new)
  · intro entry member running
    rcases entries entry member with rfl | ⟨same, _⟩
    · exact ⟨leaseToken, rfl, mem_append_right _ (mem_singleton.mpr rfl)⟩
    · obtain ⟨token, leased, held⟩ := sound.leased entry same running
      exact ⟨token, leased, mem_append_left _ held⟩
  · intro entry member active
    rcases entries entry member with rfl | ⟨same, _⟩
    · exact sound.unanswered operation present (pending_active pending)
    · exact sound.unanswered entry same active
  · intro entry member
    rcases mem_append.mp member with held | new
    · exact sound.handedDrawn entry held
    · rw [mem_singleton.mp new]
      exact sound.drawn operation present
  · simp only [claimed, map_append, map_cons, map_nil]
    apply nodup_append.mpr
    refine ⟨sound.handedOnce, nodup_singleton _, ?_⟩
    intro held member new single same
    apply unheld
    rw [← mem_singleton.mp single, ← same]
    exact member
  · intro entry member
    exact mem_append_left _ (sound.own entry member)
  · intro entry member _
    rcases entries entry member with rfl | ⟨same, _⟩
    · refine ⟨operation, present, rfl, ?_⟩
      intro final
      rw [pending_active pending] at final
      cases final
    · exact ⟨entry, same, rfl, fun _ => rfl⟩
  · intro entry member other
    exact absurd member other
  · intro entry member _
    rw [claimed, ids]
    exact mem_map_of_mem member

def answered (installation : Installation) (operationId : ℕ) (status : Status) (answer : Answer)
    (now : Instant) : Installation :=
  { installation with
    operations := changeFirst (fun entry => entry.id = operationId) (close status answer now)
      installation.operations
    accepted := installation.accepted ++ [(operationId, textOf answer.leaseToken)] }

theorem reportedStatus_final {text : Text} {status : Status}
    (reported : reportedStatus text = some status) : status = .succeeded ∨ status = .failed := by
  unfold reportedStatus at reported
  split at reported
  · cases reported
    exact Or.inl rfl
  · split at reported
    · cases reported
      exact Or.inr rfl
    · cases reported

theorem answered_follows (sound : Sound installation) {operationId : ℕ} {answer : Answer}
    {status : Status}
    (found : (installation.operations.find? fun entry => entry.id = operationId) = some operation)
    (running : operation.status = .running)
    (lease : textOf operation.leaseToken = textOf answer.leaseToken)
    (final : status = .succeeded ∨ status = .failed) (now : Instant) :
    Follows installation (answered installation operationId status answer now) := by
  have present := List.mem_of_find?_eq_some found
  have hit := List.find?_some found
  have named : operation.id = operationId := of_decide_eq_true hit
  have keeps : ∀ entry, (close status answer now entry).id = entry.id := fun _ => rfl
  have ids := changeFirst_ids (fun entry => entry.id = operationId) keeps installation.operations
  have entries := mem_changeFirst (close status answer now) sound.distinct found
  have closed : (close status answer now operation).active = false := by
    rcases final with rfl | rfl <;> rfl
  obtain ⟨token, leased, held⟩ := sound.leased operation present running
  rw [leased] at lease
  have open_ := sound.unanswered operation present (running_active running)
  have still : ∀ entry, entry ∈ (answered installation operationId status answer now).operations →
      entry.active = true → entry ∈ installation.operations ∧ entry.id ≠ operation.id := by
    intro entry member active
    rcases entries entry member with rfl | other
    · rw [closed] at active
      cases active
    · exact other
  refine ⟨⟨?_, ?_, ?_, ?_, ?_, ?_, sound.handedDrawn, sound.handedOnce, ?_, ?_⟩,
    ⟨Nat.le_refl _, ?_⟩, ?_, ?_⟩
  · rw [answered, ids]
    exact sound.distinct
  · intro entry member
    rcases entries entry member with rfl | ⟨same, _⟩
    · exact sound.drawn operation present
    · exact sound.drawn entry same
  · intro entry member active
    rw [answered, ids]
    exact sound.latest entry (still entry member active).1 active
  · intro entry member pending
    exact sound.waiting entry (still entry member (pending_active pending)).1 pending
  · intro entry member runs
    exact sound.leased entry (still entry member (running_active runs)).1 runs
  · intro entry member active
    obtain ⟨same, other⟩ := still entry member active
    have absent := sound.unanswered entry same active
    rw [answered, map_append, mem_append, ← named]
    exact fun taken => taken.elim absent fun new => other (mem_singleton.mp new)
  · simp only [answered, map_append, map_cons, map_nil]
    apply nodup_append.mpr
    refine ⟨sound.acceptedOnce, nodup_singleton _, ?_⟩
    intro earlier member new single same
    apply open_
    rw [named, ← mem_singleton.mp single, ← same]
    exact member
  · intro entry member
    rcases mem_append.mp member with earlier | new
    · exact sound.own entry earlier
    · rw [mem_singleton.mp new, ← named, ← lease]
      exact held
  · intro entry member _
    rcases entries entry member with rfl | ⟨same, _⟩
    · refine ⟨operation, present, rfl, ?_⟩
      intro ended
      rw [running_active running] at ended
      cases ended
    · exact ⟨entry, same, rfl, fun _ => rfl⟩
  · intro entry member other
    rcases mem_append.mp member with earlier | new
    · exact absurd earlier other
    · rw [mem_singleton.mp new]
      exact ⟨operation, present, named, running, lease ▸ leased⟩
  · intro entry member _
    rw [answered, ids]
    exact mem_map_of_mem member

theorem enqueue_ok {existing operations : List Operation} {request : NewOperation}
    (accepted : enqueue existing request = .ok (operations, operation)) :
    (∀ entry ∈ existing, entry.active = false) ∧ operation.id = request.id ∧
      operation.status = .pending ∧
      ∃ n, n ≤ existing.length - 39 ∧ operations = existing.drop n ++ [operation] := by
  unfold enqueue at accepted
  split at accepted
  · cases accepted
  · split at accepted
    · cases accepted
    · rename_i quiet
      cases accepted
      refine ⟨?_, rfl, rfl, existing.length + 1 - maxHistory, ?_, ?_⟩
      · intro entry member
        apply Bool.eq_false_iff.mpr
        intro active
        exact quiet (any_eq_true.mpr ⟨entry, member, active⟩)
      · simp only [maxHistory]
        omega
      · simp only [length_append, length_singleton]
        apply drop_append_of_le_length
        simp only [maxHistory]
        omega

def queued (installation : Installation) (operations : List Operation) : Installation :=
  { installation with operations := operations, nextId := installation.nextId + 1 }

section

variable (sound : Sound installation)

include sound

theorem queued_follows {expiredAt : Instant} {request : NewOperation}
    (named : request.id = installation.nextId)
    (accepted : enqueue (expireTimedOut installation.operations expiredAt) request = .ok
      (operations, operation)) :
    Follows installation (queued installation operations) := by
  have earlier := expired_follows sound expiredAt
  obtain ⟨quiet, same, pending, n, few, whole⟩ := enqueue_ok accepted
  have fresh : operation.id = installation.nextId := same.trans named
  have entries : ∀ entry ∈ operations, entry = operation ∨
      entry ∈ expireTimedOut installation.operations expiredAt := by
    intro entry member
    rw [whole] at member
    rcases mem_append.mp member with old | new
    · exact Or.inr (mem_of_mem_drop old)
    · exact Or.inl (mem_singleton.mp new)
  have only : ∀ entry ∈ operations, entry.active = true → entry = operation := by
    intro entry member active
    rcases entries entry member with new | old
    · exact new
    · rw [quiet entry old] at active
      cases active
  have unheld : operation.id ∉ installation.handed.map Prod.fst := by
    intro held
    obtain ⟨entry, member, clash⟩ := mem_map.mp held
    have below := sound.handedDrawn entry member
    omega
  have ids : operations.map Operation.id =
      (installation.operations.map Operation.id).drop n ++ [operation.id] := by
    rw [whole, map_append, map_drop, expireTimedOut_ids]
    rfl
  refine ⟨⟨?_, ?_, ?_, ?_, ?_, ?_, ?_, sound.handedOnce, sound.acceptedOnce, sound.own⟩,
    ⟨Nat.le_succ _, ?_⟩, ?_, ?_⟩
  · change (operations.map Operation.id).Nodup
    rw [ids]
    apply nodup_append.mpr
    refine ⟨sound.distinct.sublist (drop_sublist _ _), nodup_singleton _, ?_⟩
    intro old member new single clash
    obtain ⟨entry, present, key⟩ := mem_map.mp (mem_of_mem_drop member)
    have below := sound.drawn entry present
    have top := mem_singleton.mp single
    omega
  · intro entry member
    rcases entries entry member with rfl | old
    · rw [fresh]
      exact Nat.lt_succ_self _
    · exact Nat.lt_succ_of_lt (earlier.sound.drawn entry old)
  · intro entry member active
    change (operations.map Operation.id).getLast? = some entry.id
    rw [only entry member active, ids, List.getLast?_concat]
  · intro entry member waits
    rw [only entry member (pending_active waits)]
    exact unheld
  · intro entry member running
    have new := only entry member (running_active running)
    rw [new, pending] at running
    cases running
  · intro entry member active answered
    rw [only entry member active] at answered
    apply unheld
    obtain ⟨pair, present, key⟩ := mem_map.mp answered
    rw [← key]
    exact mem_map_of_mem (sound.own pair present)
  · intro entry member
    exact Nat.lt_succ_of_lt (sound.handedDrawn entry member)
  · intro entry member old
    rcases entries entry member with rfl | kept
    · omega
    · exact earlier.evolves.past entry kept old
  · intro entry member other
    exact absurd member other
  · intro entry member active
    change entry.id ∈ operations.map Operation.id
    rw [ids]
    apply mem_append_left
    -- the open operation is the newest one, so that the history limit cannot reach it
    have last := sound.latest entry member active
    have length : n < (installation.operations.map Operation.id).length := by
      have present := length_pos_of_mem member
      rw [expireTimedOut, length_map] at few
      rw [length_map]
      omega
    have newest : ((installation.operations.map Operation.id).drop n).getLast? = some entry.id := by
      rw [List.getLast?_drop, if_neg (Nat.not_le.mpr length)]
      exact last
    exact List.mem_of_getLast? newest

theorem handleQueueOperation_follows (body : QueueRequest) (releaseCommit : Option Text)
    (expiredAt now : Instant) (saved : Bool) : Follows installation
      (handleQueueOperation installation body releaseCommit expiredAt now saved) := by
  simp only [handleQueueOperation]
  split
  · exact Follows.refl sound
  · split
    · exact Follows.refl sound
    · split
      · exact Follows.refl sound
      · split
        · exact Follows.refl sound
        · rename_i accepted
          split
          · exact queued_follows sound rfl accepted
          · exact Follows.refl sound

theorem handleClaimOperation_follows (leaseToken : Text) (now : Instant) (saved : Bool) :
    Follows installation (handleClaimOperation installation leaseToken now saved) := by
  have first := expired_follows sound now
  cases saved with
  | false => exact Follows.refl sound
  | true =>
    simp only [handleClaimOperation, claim, if_true]
    split
    · simp only [Option.map_none, Option.toList_none, append_nil]
      exact first
    · rename_i operation found
      have next := claimed_follows first.sound found leaseToken now
      refine ⟨next.sound, first.evolves.trans next.evolves, ?_, ?_⟩
      · intro entry member other
        obtain ⟨open_, present, named, running, leased⟩ := next.accepts entry member other
        have before := active_expireTimedOut present (running_active running)
        exact ⟨open_, before, named, running, leased⟩
      · intro entry member _
        have keeps : ∀ entry, (start leaseToken now entry).id = entry.id := fun _ => rfl
        have ids := changeFirst_ids isPending keeps (expireTimedOut installation.operations now)
        change entry.id ∈ (changeFirst _ _ (expireTimedOut installation.operations now)).map _
        rw [ids, expireTimedOut_ids]
        exact mem_map_of_mem member

theorem handleOperationResult_follows (operationId : ℕ) (answer : Answer) (now : Instant)
    (saved : Bool) :
    Follows installation (handleOperationResult installation operationId answer now saved) := by
  simp only [handleOperationResult]
  split
  · exact Follows.refl sound
  · rename_i operations accepted
    split
    · unfold finish at accepted
      split at accepted
      · cases accepted
      · rename_i operation found
        by_cases running : operation.status = .running
        · rw [if_neg (not_not_intro running)] at accepted
          by_cases lease : textOf operation.leaseToken = textOf answer.leaseToken
          · rw [if_neg (not_not_intro lease)] at accepted
            split at accepted
            · cases accepted
            · rename_i status reported
              cases accepted
              have final := reportedStatus_final reported
              exact answered_follows sound found running lease final now
          · rw [if_pos lease] at accepted
            cases accepted
        · rw [if_pos running] at accepted
          cases accepted
    · exact Follows.refl sound

theorem step_follows (event : Event) : Follows installation (step installation event) := by
  cases event with
  | queue body releaseCommit expiredAt now saved =>
    exact handleQueueOperation_follows sound body releaseCommit expiredAt now saved
  | claim leaseToken now saved => exact handleClaimOperation_follows sound leaseToken now saved
  | result operationId answer now saved =>
    exact handleOperationResult_follows sound operationId answer now saved
  | expire now => exact expired_follows sound now
  | restart => exact Follows.refl sound

end

variable (events : List Event)

theorem after_succ (n : ℕ) :
    after events (n + 1) = (events[n]?.toList).foldl step (after events n) := by
  rw [after, after, take_add_one, foldl_append]

theorem after_sound (n : ℕ) : Sound (after events n) := by
  induction n with
  | zero => exact sound_new
  | succ n ih =>
    rw [after_succ]
    cases events[n]? with
    | none => exact ih
    | some event => exact (step_follows ih event).sound

theorem after_follows (n : ℕ) : Follows (after events n) (after events (n + 1)) := by
  rw [after_succ]
  cases events[n]? with
  | none => exact Follows.refl (after_sound events n)
  | some event => exact step_follows (after_sound events n) event

theorem after_evolves {n m : ℕ} (later : n ≤ m) : Evolves (after events n) (after events m) := by
  induction m, later using Nat.le_induction with
  | base => exact Evolves.refl _
  | succ m _ ih => exact ih.trans (after_follows events m).evolves

/-- Remote operations run at most once, as far as the Central can see. -/
structure AtMostOnce (events : List Event) : Prop where
  single : ∀ n, ((after events n).operations.filter Operation.active).length ≤ 1
  handedOnce : ∀ n, ((after events n).handed.map Prod.fst).Nodup
  acceptedOnce : ∀ n, ((after events n).accepted.map Prod.fst).Nodup
  acceptedOwn : ∀ n, ∀ entry ∈ (after events n).accepted, entry ∈ (after events n).handed
  acceptedRunning : ∀ n, ∀ entry ∈ (after events (n + 1)).accepted,
    entry ∉ (after events n).accepted →
    ∃ operation ∈ (after events n).operations, operation.id = entry.1 ∧
      operation.status = .running ∧ operation.leaseToken = some entry.2
  settled : ∀ n m, n ≤ m → ∀ operation ∈ (after events n).operations, operation.active = false →
    ∀ later ∈ (after events m).operations, later.id = operation.id → later = operation
  kept : ∀ n, ∀ operation ∈ (after events n).operations, operation.active = true →
    ∃ later ∈ (after events (n + 1)).operations, later.id = operation.id

theorem single_of_sound (sound : Sound installation) :
    (installation.operations.filter Operation.active).length ≤ 1 := by
  have distinct : (installation.operations.filter Operation.active).Nodup :=
    (List.Nodup.of_map _ sound.distinct).filter _
  rcases shape : installation.operations.filter Operation.active with _ | ⟨first, rest⟩
  · exact Nat.zero_le _
  · rcases rest with _ | ⟨second, more⟩
    · exact Nat.le_refl _
    · have one : first ∈ installation.operations.filter Operation.active := by
        rw [shape]
        exact mem_cons_self
      have other : second ∈ installation.operations.filter Operation.active := by
        rw [shape]
        exact mem_cons_of_mem _ mem_cons_self
      obtain ⟨firstMember, firstActive⟩ := mem_filter.mp one
      obtain ⟨secondMember, secondActive⟩ := mem_filter.mp other
      have last := sound.latest first firstMember firstActive
      rw [sound.latest second secondMember secondActive] at last
      have same := eq_of_key sound.distinct secondMember firstMember (Option.some.inj last)
      rw [shape, same] at distinct
      exact absurd mem_cons_self (nodup_cons.mp distinct).1

/-- In every run, under any clock. -/
theorem operations_at_most_once (events : List Event) : AtMostOnce events where
  single n := single_of_sound (after_sound events n)
  handedOnce n := (after_sound events n).handedOnce
  acceptedOnce n := (after_sound events n).acceptedOnce
  acceptedOwn n := (after_sound events n).own
  acceptedRunning n := (after_follows events n).accepts
  settled := by
    intro n m order operation member final later present same
    have before := after_sound events n
    have old : later.id < (after events n).nextId := same ▸ before.drawn operation member
    obtain ⟨earlier, there, named, unchanged⟩ :=
      (after_evolves events order).past later present old
    have found := eq_of_key before.distinct there member (named.trans same)
    rw [unchanged (found ▸ final), found]
  kept := by
    intro n operation member active
    obtain ⟨later, present, same⟩ :=
      mem_map.mp ((after_follows events n).kept operation member active)
    exact ⟨later, present, same⟩

end DracVms.RemoteOperations
