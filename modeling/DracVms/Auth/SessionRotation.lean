import DracVms.Auth.AuthService

namespace DracVms.SessionRotation

open List

open Json (Text)
open Database (Instant)
open AuthService
open Interleaving (Always GrowsBy Guarantees Holds Outline always_cons always_free growsBy_cons
  owned_none owned_some resumesIf)

/-- The increment of a logout or a password reset that is completed. -/
def closing : Mark → Option ℕ
  | .loggedOut increment => some increment
  | .changed _ increment => some increment
  | _ => none

def ExchangedOnce (mark : Mark) (before : List Mark) : Prop :=
  ∀ tokenHash, mark = .exchanged tokenHash → .exchanged tokenHash ∉ before

/-- No logout and no reset stands between the exchange of a token and the call that issued it. -/
def ExchangedOpen (mark : Mark) (before : List Mark) : Prop :=
  ∀ tokenHash, mark = .exchanged tokenHash → ∀ access readAt,
    .issued access tokenHash readAt ∈ before → ∀ closed ∈ before, ∀ increment,
      closing closed = some increment → increment ≤ readAt

structure RotationSafe (s : Account) : Prop where
  once : Always ExchangedOnce s.timeline
  refresh : Always ExchangedOpen s.timeline
  access : ∀ access tokenHash readAt, .issued access tokenHash readAt ∈ s.timeline →
    ∀ closed ∈ s.timeline, ∀ increment, closing closed = some increment → readAt < increment →
      validateAccessPayload s.user access = none

def resetSince (s : Account) (readAt : ℕ) : Prop :=
  ∃ tokenHash increment, .changed tokenHash increment ∈ s.timeline ∧ readAt < increment

/-- A refresh finds its session still to be rotated only if no password has been reset since it read
the user. -/
def orderly (s : Account) : Call → Answer → Prop
  | .refreshRotate tokenHash now session user readAt, .drawn _ _ =>
    resetSince s readAt → ∀ row ∈ s.sessions, rotates tokenHash now session user row = false
  | _, _ => True

section Invariant

variable (base : ℕ)

structure Sound (s : Account) : Prop where
  version : s.user.authVersion = base + s.increments
  issuedVersion : ∀ access tokenHash readAt, .issued access tokenHash readAt ∈ s.timeline →
    access.ver = base + readAt
  issuedOnce : ∀ access tokenHash readAt access' readAt',
    .issued access tokenHash readAt ∈ s.timeline → .issued access' tokenHash readAt' ∈ s.timeline →
      readAt = readAt'
  closed : ∀ mark ∈ s.timeline, ∀ increment, closing mark = some increment →
    increment ≤ s.increments
  ids : (s.sessions.map AuthSession.id).Nodup
  hashes : (s.sessions.map AuthSession.tokenHash).Nodup
  origin : ∀ session ∈ s.sessions, ∃ access readAt,
    .issued access session.tokenHash readAt ∈ s.timeline ∧ session.authVersion = base + readAt
  spent : ∀ tokenHash, .exchanged tokenHash ∈ s.timeline → tokenHash ∈ issuedHashes s ∧
    ∀ session ∈ s.sessions, session.tokenHash ≠ tokenHash
  once : Always ExchangedOnce s.timeline

/-- What a waiting call relies on: it knows the version that it read, and no live session carries
the token of a refresh that read the user before a completed logout. -/
def Own (s : Account) : Call → Prop
  | .loginCompare _ _ _ user readAt => user.authVersion = base + readAt
  | .loginSession user readAt => user.authVersion = base + readAt
  | .refreshRotate tokenHash _ _ user readAt =>
    user.authVersion = base + readAt ∧
    (∃ access, .issued access tokenHash readAt ∈ s.timeline) ∧
    ∀ increment, .loggedOut increment ∈ s.timeline → readAt < increment →
      ∀ session ∈ s.sessions, session.tokenHash = tokenHash → session.revokedAt ≠ none
  | .logoutRevoke _ increment => increment ≤ s.increments
  | _ => True

end Invariant

theorem mem_issuedHashes {s : Account} {tokenHash : Text} :
    tokenHash ∈ issuedHashes s ↔ ∃ access readAt, .issued access tokenHash readAt ∈ s.timeline := by
  rw [issuedHashes, mem_filterMap]
  constructor
  · rintro ⟨mark, member, hash⟩
    cases mark with
    | issued access issued readAt =>
      cases hash
      exact ⟨access, readAt, member⟩
    | exchanged | loggedOut | requested | changed | evaluated | expired => cases hash
  · rintro ⟨access, readAt, member⟩
    exact ⟨_, member, rfl⟩

/-- How a step may change what the other calls rely on. -/
structure Evolves (s t : Account) : Prop where
  marks : ∀ mark ∈ s.timeline, mark ∈ t.timeline
  increments : s.increments ≤ t.increments
  live : ∀ session ∈ t.sessions, session.revokedAt = none → session.tokenHash ∈ issuedHashes s →
    ∃ old ∈ s.sessions, old.tokenHash = session.tokenHash ∧ old.revokedAt = none
  loggedOut : ∀ increment, .loggedOut increment ∈ t.timeline →
    .loggedOut increment ∈ s.timeline ∨ ∀ session ∈ t.sessions, session.revokedAt ≠ none

variable {base : ℕ}

theorem Evolves.own {s t : Account} (evolves : Evolves s t) (call : Call) (own : Own base s call) :
    Own base t call := by
  cases call with
  | refreshRotate tokenHash now session user readAt =>
    obtain ⟨version, ⟨access, issued⟩, revoked⟩ := own
    refine ⟨version, ⟨access, evolves.marks _ issued⟩, ?_⟩
    intro increment out later row member same live
    rcases evolves.loggedOut increment out with before | all
    · have known : row.tokenHash ∈ issuedHashes s :=
        mem_issuedHashes.mpr ⟨access, readAt, same ▸ issued⟩
      obtain ⟨old, there, sameHash, oldLive⟩ := evolves.live row member live known
      exact revoked increment before later old there (sameHash.trans same) oldLive
    · exact all row member live
  | logoutRevoke now increment => exact Nat.le_trans own evolves.increments
  | loginCompare | loginSession => exact own
  | loginSettings | loginUser | loginPurge | refreshFind | logoutIncrement | forgotFind
  | forgotUpdate | resetFind | resetStrength | resetHash | resetUpdate => trivial

/-- A mark that says nothing about sessions. -/
def neutral : Mark → Bool
  | .requested _ _ => true
  | .evaluated => true
  | .expired => true
  | _ => false

/-- A step that neither concerns the sessions nor the version of the account. -/
structure Idle (s t : Account) : Prop where
  version : t.user.authVersion = s.user.authVersion
  increments : t.increments = s.increments
  sessions : t.sessions = s.sessions
  timeline : GrowsBy (fun mark => neutral mark = true) s.timeline t.timeline

variable {mark : Mark}

section Idle

variable {s t : Account} (idle : Idle s t)

include idle

theorem Idle.mem (matters : neutral mark = false) : mark ∈ t.timeline ↔ mark ∈ s.timeline :=
  idle.timeline.mem (Bool.eq_false_iff.mp matters)

theorem Idle.evolves : Evolves s t where
  marks _ member := idle.timeline.subset member
  increments := Nat.le_of_eq idle.increments.symm
  live := by
    intro session member live _
    rw [idle.sessions] at member
    exact ⟨session, member, rfl, live⟩
  loggedOut := by
    intro increment out
    exact Or.inl ((idle.mem rfl).mp out)

theorem Idle.sound (sound : Sound base s) : Sound base t where
  version := by rw [idle.version, idle.increments, sound.version]
  issuedVersion access tokenHash readAt issued :=
    sound.issuedVersion access tokenHash readAt ((idle.mem rfl).mp issued)
  issuedOnce access tokenHash readAt access' readAt' first second :=
    sound.issuedOnce access tokenHash readAt access' readAt' ((idle.mem rfl).mp first)
      ((idle.mem rfl).mp second)
  closed := by
    intro mark member increment closes
    have matters : neutral mark = false := by
      cases mark <;> first | rfl | cases closes
    rw [idle.increments]
    exact sound.closed mark ((idle.mem matters).mp member) increment closes
  ids := by
    rw [idle.sessions]
    exact sound.ids
  hashes := by
    rw [idle.sessions]
    exact sound.hashes
  origin := by
    intro session member
    rw [idle.sessions] at member
    obtain ⟨access, readAt, issued, version⟩ := sound.origin session member
    exact ⟨access, readAt, (idle.mem rfl).mpr issued, version⟩
  spent := by
    intro tokenHash exchanged
    obtain ⟨known, gone⟩ := sound.spent tokenHash ((idle.mem rfl).mp exchanged)
    obtain ⟨access, readAt, issued⟩ := mem_issuedHashes.mp known
    refine ⟨mem_issuedHashes.mpr ⟨access, readAt, (idle.mem rfl).mpr issued⟩, ?_⟩
    rw [idle.sessions]
    exact gone
  once := by
    apply (idle.timeline.always _).mpr sound.once
    intro mark before free tokenHash same
    rw [same] at free
    cases free

end Idle

theorem idle_of_quiet {s t : Account} (quiet : Quiet s t) : Idle s t where
  version := by rw [quiet.user]
  increments := quiet.increments
  sessions := quiet.sessions
  timeline := by
    apply quiet.timeline.mono
    intro mark minor
    rcases minor with evaluated | expired
    · rw [evaluated]
      rfl
    · rw [expired]
      rfl

theorem idle_store (s : Account) (tokenHash : Text) : Idle s (storeResetToken s tokenHash) where
  version := rfl
  increments := rfl
  sessions := rfl
  timeline := growsBy_cons rfl

theorem idle_guarantees {s t : Account} {next : Option Call} (sound : Sound base s)
    (idle : Idle s t) (own : ∀ call ∈ next, Own base t call) :
    Guarantees (Sound base) (Own base) s t next where
  shared := idle.sound sound
  own := own
  others := idle.evolves.own

section Steps

variable {base : ℕ} {runtime : Runtime} {s : Account} (sound : Sound base s)

include sound

theorem Sound.marked (issues : ∀ access tokenHash readAt, mark ≠ .issued access tokenHash readAt)
    (exchanges : ∀ tokenHash, mark ≠ .exchanged tokenHash)
    (known : ∀ increment, closing mark = some increment → increment ≤ s.increments) :
    Sound base (record s mark) := by
  have issuedBefore : ∀ {access tokenHash readAt},
      .issued access tokenHash readAt ∈ (record s mark).timeline →
        .issued access tokenHash readAt ∈ s.timeline := by
    intro access tokenHash readAt member
    rcases mem_cons.mp member with new | old
    · exact absurd new.symm (issues access tokenHash readAt)
    · exact old
  exact {
    version := sound.version
    issuedVersion := fun access tokenHash readAt issued =>
      sound.issuedVersion access tokenHash readAt (issuedBefore issued)
    issuedOnce := fun access tokenHash readAt access' readAt' first second =>
      sound.issuedOnce access tokenHash readAt access' readAt' (issuedBefore first)
        (issuedBefore second)
    closed := by
      intro other member increment closes
      rcases mem_cons.mp member with new | old
      · exact known increment (new ▸ closes)
      · exact sound.closed other old increment closes
    ids := sound.ids
    hashes := sound.hashes
    origin := by
      intro session member
      obtain ⟨access, readAt, issued, version⟩ := sound.origin session member
      exact ⟨access, readAt, mem_cons_of_mem _ issued, version⟩
    spent := by
      intro tokenHash member
      rcases mem_cons.mp member with new | old
      · exact absurd new.symm (exchanges tokenHash)
      · obtain ⟨hash, gone⟩ := sound.spent tokenHash old
        obtain ⟨access, readAt, issued⟩ := mem_issuedHashes.mp hash
        exact ⟨mem_issuedHashes.mpr ⟨access, readAt, mem_cons_of_mem _ issued⟩, gone⟩
    once := by
      apply always_cons.mpr ⟨_, sound.once⟩
      intro tokenHash same
      exact absurd same (exchanges tokenHash) }

theorem Sound.incremented : Sound base (incrementVersion s) := {
  sound with
  version := by
    show s.user.authVersion + 1 = base + (s.increments + 1)
    rw [sound.version, Nat.add_assoc]
  closed := by
    intro mark member increment closes
    exact Nat.le_succ_of_le (sound.closed mark member increment closes) }

theorem increment_guarantees (now : Instant) :
    Guarantees (Sound base) (Own base) s (incrementVersion s)
      (some (.logoutRevoke now (s.increments + 1))) where
  shared := sound.incremented
  own := owned_some (Nat.le_refl _)
  others := by
    apply Evolves.own
    exact {
      marks := fun _ member => member
      increments := Nat.le_succ _
      live := fun session member live _ => ⟨session, member, rfl, live⟩
      loggedOut := fun _ out => Or.inl out }

theorem write_guarantees (tokenHash passwordHash : Text) :
    Guarantees (Sound base) (Own base) s (writePassword s tokenHash passwordHash) none where
  shared := by
    have written : Sound base
        { incrementVersion s with
          user :=
            { (incrementVersion s).user with
              passwordHash := passwordHash
              resetTokenHash := none
              resetTokenExpiresAt := none } } := { sound.incremented with }
    apply written.marked
    · intro access issued readAt same
      cases same
    · intro exchanged same
      cases same
    · intro increment closes
      cases closes
      exact Nat.le_refl _
  own := owned_none
  others := by
    apply Evolves.own
    exact {
      marks := fun _ member => mem_cons_of_mem _ member
      increments := Nat.le_succ _
      live := fun session member live _ => ⟨session, member, rfl, live⟩
      loggedOut := by
        intro increment out
        rcases mem_cons.mp out with new | old
        · cases new
        · exact Or.inl old }

variable {now : Instant}

omit sound in
theorem mem_revokeSessions {session : AuthSession}
    (member : session ∈ (revokeSessions s now).sessions) :
    session.revokedAt ≠ none ∧ ∃ old ∈ s.sessions, old.tokenHash = session.tokenHash ∧
      old.authVersion = session.authVersion := by
  obtain ⟨old, there, changed⟩ := mem_map.mp member
  rw [← changed]
  by_cases live : old.revokedAt.isNone
  · rw [if_pos live]
    exact ⟨Option.some_ne_none now, old, there, rfl, rfl⟩
  · rw [if_neg live]
    refine ⟨?_, old, there, rfl, rfl⟩
    intro none
    rw [none] at live
    exact live rfl

theorem Sound.revoked (now : Instant) : Sound base (revokeSessions s now) := by
  have same : ∀ session : AuthSession,
      (if session.revokedAt.isNone then { session with revokedAt := some now } else session).id =
          session.id ∧
        (if session.revokedAt.isNone then { session with revokedAt := some now }
          else session).tokenHash = session.tokenHash := by
    intro session
    split
    all_goals exact ⟨rfl, rfl⟩
  exact {
    sound with
    ids := by
      simp only [revokeSessions, map_map, Function.comp_def, same]
      exact sound.ids
    hashes := by
      simp only [revokeSessions, map_map, Function.comp_def, same]
      exact sound.hashes
    origin := by
      intro session member
      obtain ⟨_, old, there, hash, version⟩ := mem_revokeSessions member
      rw [← hash, ← version]
      exact sound.origin old there
    spent := by
      intro tokenHash exchanged
      obtain ⟨hash, gone⟩ := sound.spent tokenHash exchanged
      refine ⟨hash, ?_⟩
      intro session member
      obtain ⟨_, old, there, same, _⟩ := mem_revokeSessions member
      rw [← same]
      exact gone old there }

theorem revoke_guarantees (now : Instant) {increment : ℕ} (known : increment ≤ s.increments) :
    Guarantees (Sound base) (Own base) s (record (revokeSessions s now) (.loggedOut increment))
      none where
  shared := by
    apply (sound.revoked now).marked
    · intro access issued readAt same
      cases same
    · intro exchanged same
      cases same
    · intro closed closes
      cases closes
      exact known
  own := owned_none
  others := by
    apply Evolves.own
    exact {
      marks := fun _ member => mem_cons_of_mem _ member
      increments := Nat.le_refl _
      live := fun _ member live _ => absurd live (mem_revokeSessions member).1
      loggedOut := fun _ _ => Or.inr fun _ member => (mem_revokeSessions member).1 }

theorem Sound.fewer {sessions : List AuthSession} (kept : List.Sublist sessions s.sessions) :
    Sound base { s with sessions := sessions } := {
  sound with
  ids := sound.ids.sublist (kept.map _)
  hashes := sound.hashes.sublist (kept.map _)
  origin := fun session member => sound.origin session (kept.subset member)
  spent := by
    intro tokenHash exchanged
    obtain ⟨hash, gone⟩ := sound.spent tokenHash exchanged
    exact ⟨hash, fun session member => gone session (kept.subset member)⟩ }

variable {tokenHash : Text}

theorem Sound.exchanges (known : tokenHash ∈ issuedHashes s)
    (unspent : .exchanged tokenHash ∉ s.timeline)
    (gone : ∀ session ∈ s.sessions, session.tokenHash ≠ tokenHash) :
    Sound base (record s (.exchanged tokenHash)) where
  version := sound.version
  issuedVersion := by
    intro access issued readAt member
    rcases mem_cons.mp member with new | old
    · cases new
    · exact sound.issuedVersion access issued readAt old
  issuedOnce := by
    intro access issued readAt access' readAt' first second
    rcases mem_cons.mp first with new | old
    · cases new
    · rcases mem_cons.mp second with new | old'
      · cases new
      · exact sound.issuedOnce access issued readAt access' readAt' old old'
  closed := by
    intro mark member increment closes
    rcases mem_cons.mp member with new | old
    · rw [new] at closes
      cases closes
    · exact sound.closed mark old increment closes
  ids := sound.ids
  hashes := sound.hashes
  origin := by
    intro session member
    obtain ⟨access, readAt, issued, version⟩ := sound.origin session member
    exact ⟨access, readAt, mem_cons_of_mem _ issued, version⟩
  spent := by
    intro exchanged member
    rcases mem_cons.mp member with new | old
    · cases new
      exact ⟨known, gone⟩
    · exact sound.spent exchanged old
  once := by
    apply always_cons.mpr ⟨_, sound.once⟩
    intro exchanged same
    cases same
    exact unspent

variable {user : User} {readAt : ℕ}

theorem Sound.issues {sessions : List AuthSession} (version : user.authVersion = base + readAt)
    (fresh : tokenHash ∉ issuedHashes s) (ids : (sessions.map AuthSession.id).Nodup)
    (hashes : (sessions.map AuthSession.tokenHash).Nodup)
    (each : ∀ session ∈ sessions, session ∈ s.sessions ∨ session.tokenHash = tokenHash ∧
      session.authVersion = user.authVersion) :
    Sound base
      (record { s with sessions := sessions } (.issued (accessPayload user) tokenHash readAt)) where
  version := sound.version
  issuedVersion := by
    intro access issued readAt' member
    rcases mem_cons.mp member with new | old
    · cases new
      exact version
    · exact sound.issuedVersion access issued readAt' old
  issuedOnce := by
    intro access issued first access' second member member'
    rcases mem_cons.mp member with new | old
    · rcases mem_cons.mp member' with new' | old'
      · cases new
        cases new'
        rfl
      · cases new
        exact absurd (mem_issuedHashes.mpr ⟨access', second, old'⟩) fresh
    · rcases mem_cons.mp member' with new' | old'
      · cases new'
        exact absurd (mem_issuedHashes.mpr ⟨access, first, old⟩) fresh
      · exact sound.issuedOnce access issued first access' second old old'
  closed := by
    intro mark member increment closes
    rcases mem_cons.mp member with new | old
    · rw [new] at closes
      cases closes
    · exact sound.closed mark old increment closes
  ids := ids
  hashes := hashes
  origin := by
    intro session member
    rcases each session member with old | ⟨hash, same⟩
    · obtain ⟨access, read, issued, known⟩ := sound.origin session old
      exact ⟨access, read, mem_cons_of_mem _ issued, known⟩
    · rw [hash, same]
      exact ⟨accessPayload user, readAt, mem_cons_self, version⟩
  spent := by
    intro exchanged member
    rcases mem_cons.mp member with new | old
    · cases new
    · obtain ⟨known, gone⟩ := sound.spent exchanged old
      refine ⟨mem_cons_of_mem _ known, ?_⟩
      intro session present
      rcases each session present with there | ⟨hash, _⟩
      · exact gone session there
      · rw [hash]
        intro same
        rw [← same] at known
        exact fresh known
  once := by
    apply always_cons.mpr ⟨_, sound.once⟩
    intro exchanged same
    cases same

theorem purge_guarantees (before : Instant) :
    Guarantees (Sound base) (Own base) s (purgeSessions s before) none where
  shared := sound.fewer filter_sublist
  own := owned_none
  others := by
    apply Evolves.own
    exact {
      marks := fun _ member => member
      increments := Nat.le_refl _
      live := fun session member live _ => ⟨session, mem_of_mem_filter member, rfl, live⟩
      loggedOut := fun _ out => Or.inl out }

theorem create_guarantees {id tokenHash : Text} (version : user.authVersion = base + readAt)
    (freshId : id ∉ s.sessions.map AuthSession.id) (fresh : tokenHash ∉ issuedHashes s)
    (now : Instant) : Guarantees (Sound base) (Own base) s
      (createRefreshSession runtime s user readAt id tokenHash) (some (.loginPurge now)) where
  shared := by
    apply sound.issues version fresh
    · exact nodup_cons.mpr ⟨freshId, sound.ids⟩
    · apply nodup_cons.mpr ⟨_, sound.hashes⟩
      intro present
      obtain ⟨session, member, same⟩ := mem_map.mp present
      obtain ⟨access, read, issued, _⟩ := sound.origin session member
      rw [same] at issued
      exact fresh (mem_issuedHashes.mpr ⟨access, read, issued⟩)
    · intro session member
      rcases mem_cons.mp member with new | old
      · rw [new]
        exact Or.inr ⟨rfl, rfl⟩
      · exact Or.inl old
  own := owned_some trivial
  others := by
    apply Evolves.own
    exact {
      marks := fun _ member => mem_cons_of_mem _ member
      increments := Nat.le_refl _
      live := by
        intro session member live known
        rcases mem_cons.mp member with new | old
        · rw [new] at known
          exact absurd known fresh
        · exact ⟨session, old, rfl, live⟩
      loggedOut := by
        intro increment out
        rcases mem_cons.mp out with new | old
        · cases new
        · exact Or.inl old }

variable {read : AuthSession}

theorem rotates_unique {row other : AuthSession} (member : row ∈ s.sessions)
    (there : other ∈ s.sessions) (found : rotates tokenHash now read user row = true)
    (same : other.tokenHash = tokenHash) : other = row := by
  simp only [rotates, Bool.and_eq_true, decide_eq_true_eq] at found
  exact KeyedList.eq_of_key sound.hashes there member (same.trans found.1.1.1.2.symm)

theorem rotated_once {row : AuthSession} (member : row ∈ s.sessions)
    (found : rotates tokenHash now read user row = true) :
    s.sessions.countP (rotates tokenHash now read user) = 1 := by
  have alone : s.sessions.filter (rotates tokenHash now read user) = [row] := by
    apply perm_singleton.mp
    apply (perm_ext_iff_of_nodup ((List.Nodup.of_map _ sound.ids).filter _)
      (nodup_singleton row)).mpr
    intro other
    rw [mem_filter, mem_singleton]
    constructor
    · rintro ⟨there, matched⟩
      apply rotates_unique sound member there found
      simp only [rotates, Bool.and_eq_true, decide_eq_true_eq] at matched
      exact matched.1.1.1.2
    · intro same
      rw [same]
      exact ⟨member, found⟩
  rw [countP_eq_length_filter, alone]
  rfl

variable {tokenHash nextHash : Text}

omit sound in
theorem rotateSession_misses
    (missed : ∀ row ∈ s.sessions, rotates tokenHash now read user row = false) :
    rotateSession runtime s tokenHash now read user readAt nextHash = s := by
  have none : s.sessions.countP (rotates tokenHash now read user) = 0 := by
    rw [countP_eq_zero]
    intro row member matched
    rw [missed row member] at matched
    cases matched
  have kept : s.sessions.map (fun session =>
      if rotates tokenHash now read user session then
        { session with
          tokenHash := nextHash
          expiresAt := now + refreshInactivityMs runtime
          lastUsedAt := now }
      else session) = s.sessions := by
    nth_rewrite 2 [← map_id s.sessions]
    apply map_congr_left
    intro row member
    rw [missed row member]
    rfl
  unfold rotateSession
  dsimp only
  rw [none, if_neg Nat.zero_ne_one, kept]

theorem rotateSession_hits {row : AuthSession} (member : row ∈ s.sessions)
    (found : rotates tokenHash now read user row = true) :
    (rotateSession runtime s tokenHash now read user readAt nextHash).timeline =
      .issued (accessPayload user) nextHash readAt :: .exchanged tokenHash :: s.timeline := by
  unfold rotateSession
  rw [if_pos (rotated_once sound member found)]
  rfl

theorem rotate_guarantees (own : Own base s (.refreshRotate tokenHash now read user readAt))
    (fresh : nextHash ∉ issuedHashes s) : Guarantees (Sound base) (Own base) s
      (rotateSession runtime s tokenHash now read user readAt nextHash) none := by
  by_cases hit : ∃ row ∈ s.sessions, rotates tokenHash now read user row = true
  · obtain ⟨row, member, found⟩ := hit
    obtain ⟨version, ⟨access, issued⟩, _⟩ := own
    have known : tokenHash ∈ issuedHashes s := mem_issuedHashes.mpr ⟨access, readAt, issued⟩
    have matched := found
    simp only [rotates, Bool.and_eq_true, decide_eq_true_eq] at matched
    have apart : ∀ session ∈ s.sessions, rotates tokenHash now read user session ≠ true →
        session.tokenHash ≠ tokenHash := by
      intro session there missed same
      rw [rotates_unique sound member there found same] at missed
      exact missed found
    have old : ∀ session ∈ s.sessions, session.tokenHash ∈ issuedHashes s := by
      intro session there
      obtain ⟨access, readAt, issued, _⟩ := sound.origin session there
      exact mem_issuedHashes.mpr ⟨access, readAt, issued⟩
    have remaining : Sound base
        (record
          { s with sessions := s.sessions.filter fun session => session.tokenHash ≠ tokenHash }
          (.exchanged tokenHash)) := by
      apply (sound.fewer filter_sublist).exchanges known
      · intro spent
        exact (sound.spent tokenHash spent).2 row member matched.1.1.1.2
      · intro session there
        exact of_decide_eq_true (mem_filter.mp there).2
    unfold rotateSession
    rw [if_pos (rotated_once sound member found)]
    exact {
      shared := by
        apply remaining.issues version fresh
        · simp only [map_map, Function.comp_def, apply_ite AuthSession.id, ite_self]
          exact sound.ids
        · simp only [map_map, Function.comp_def, apply_ite AuthSession.tokenHash]
          apply List.Nodup.map_on _ (List.Nodup.of_map _ sound.ids)
          intro first there second there' same
          by_cases one : rotates tokenHash now read user first = true
          · by_cases other : rotates tokenHash now read user second = true
            · simp only [rotates, Bool.and_eq_true, decide_eq_true_eq] at one other
              exact KeyedList.eq_of_key sound.hashes there there'
                (one.1.1.1.2.trans other.1.1.1.2.symm)
            · rw [if_pos one, if_neg other] at same
              exact absurd (same ▸ old second there') fresh
          · by_cases other : rotates tokenHash now read user second = true
            · rw [if_neg one, if_pos other] at same
              exact absurd (same ▸ old first there) fresh
            · rw [if_neg one, if_neg other] at same
              exact KeyedList.eq_of_key sound.hashes there there' same
        · intro session present
          obtain ⟨before, there, changed⟩ := mem_map.mp present
          rw [← changed]
          by_cases hit : rotates tokenHash now read user before = true
          · rw [if_pos hit]
            simp only [rotates, Bool.and_eq_true, decide_eq_true_eq] at hit
            exact Or.inr ⟨rfl, hit.2⟩
          · rw [if_neg hit]
            exact Or.inl (mem_filter.mpr ⟨there, decide_eq_true (apart before there hit)⟩)
      own := owned_none
      others := by
        apply Evolves.own
        exact {
          marks := fun _ member => mem_cons_of_mem _ (mem_cons_of_mem _ member)
          increments := Nat.le_refl _
          live := by
            intro session present live seen
            obtain ⟨before, there, changed⟩ := mem_map.mp present
            by_cases hit : rotates tokenHash now read user before = true
            · rw [if_pos hit] at changed
              rw [← changed] at seen
              exact absurd seen fresh
            · rw [if_neg hit] at changed
              rw [← changed] at live ⊢
              exact ⟨before, there, rfl, live⟩
          loggedOut := by
            intro increment out
            rcases mem_cons.mp out with new | rest
            · cases new
            · rcases mem_cons.mp rest with new | old
              · cases new
              · exact Or.inl old } }
  · have missed : ∀ row ∈ s.sessions, rotates tokenHash now read user row = false := by
      intro row member
      rw [← Bool.not_eq_true]
      exact fun found => hit ⟨row, member, found⟩
    rw [rotateSession_misses missed]
    exact Guarantees.ends sound

theorem rotate_exchanges (own : Own base s (.refreshRotate tokenHash now read user readAt))
    (holds : Always ExchangedOpen s.timeline) : Always ExchangedOpen
        (rotateSession runtime s tokenHash now read user readAt nextHash).timeline ↔
      (resetSince s readAt → ∀ row ∈ s.sessions, rotates tokenHash now read user row = false) := by
  obtain ⟨_, ⟨access, issued⟩, revoked⟩ := own
  by_cases hit : ∃ row ∈ s.sessions, rotates tokenHash now read user row = true
  · obtain ⟨row, member, found⟩ := hit
    rw [rotateSession_hits sound member found, always_cons, always_cons]
    constructor
    · rintro ⟨_, here, _⟩ ⟨resetHash, increment, reset, later⟩
      have bound := here tokenHash rfl access readAt issued _ reset increment rfl
      omega
    · intro allowed
      refine ⟨?_, ?_, holds⟩
      · intro exchanged same
        cases same
      · intro exchanged same access' read' issued' closed before increment closes
        cases same
        rw [sound.issuedOnce access' tokenHash read' access readAt issued' issued]
        by_contra late
        have later : readAt < increment := by omega
        cases closed with
        | loggedOut increment' =>
          cases closes
          simp only [rotates, Bool.and_eq_true, decide_eq_true_eq,
            Option.isNone_iff_eq_none] at found
          exact revoked increment before later row member found.1.1.1.2 found.1.1.2
        | changed resetHash increment' =>
          cases closes
          have missed := allowed ⟨resetHash, increment, before, later⟩ row member
          rw [found] at missed
          cases missed
        | issued | exchanged | requested | evaluated | expired => cases closes
  · have missed : ∀ row ∈ s.sessions, rotates tokenHash now read user row = false := by
      intro row member
      rw [← Bool.not_eq_true]
      exact fun found => hit ⟨row, member, found⟩
    rw [rotateSession_misses missed]
    exact iff_of_true holds fun _ => missed

theorem found_own (tokenHash : Text) (now : Instant) :
    ∀ call ∈ foundSession s tokenHash now, Own base s call := by
  intro call same
  unfold foundSession at same
  split at same
  · rename_i session found
    split at same
    · cases same
    · rename_i fits
      cases same
      simp only [Bool.or_eq_true, decide_eq_true_eq, not_or, ne_eq, Decidable.not_not] at fits
      have hit := List.find?_some found
      have hash : session.tokenHash = tokenHash := of_decide_eq_true hit
      obtain ⟨access, readAt, issued, version⟩ :=
        sound.origin session (List.mem_of_find?_eq_some found)
      have current : readAt = s.increments := by
        have same := fits.2
        rw [version, sound.version] at same
        omega
      refine ⟨sound.version, ⟨access, ?_⟩, ?_⟩
      · rw [← hash, ← current]
        exact issued
      · intro increment out later
        have bound := sound.closed _ out increment rfl
        omega
  · cases same

end Steps

/-- What one step means for the calls under way and for the tokens exchanged so far. -/
structure Effect (base : ℕ) (s t : Account) (next : Option Call) (allowed : Prop) : Prop where
  guarantees : Guarantees (Sound base) (Own base) s t next
  exchanges : Always ExchangedOpen s.timeline → (Always ExchangedOpen t.timeline ↔ allowed)

section Effects

variable {base : ℕ} {runtime : Runtime} {s t : Account} {next : Option Call}

theorem idle_effect (sound : Sound base s) (idle : Idle s t)
    (own : ∀ call ∈ next, Own base t call) : Effect base s t next True where
  guarantees := idle_guarantees sound idle own
  exchanges := by
    intro holds
    apply iff_of_true _ trivial
    apply (idle.timeline.always _).mpr holds
    intro mark before free tokenHash same
    rw [same] at free
    cases free

theorem marked_effect (guarantees : Guarantees (Sound base) (Own base) s t next)
    (marked : t.timeline = mark :: s.timeline) (plain : ∀ tokenHash, mark ≠ .exchanged tokenHash) :
    Effect base s t next True where
  guarantees := guarantees
  exchanges := by
    intro holds
    rw [marked, always_cons]
    apply iff_of_true _ trivial
    refine ⟨?_, holds⟩
    intro tokenHash same
    exact absurd same (plain tokenHash)

theorem unmarked_effect (guarantees : Guarantees (Sound base) (Own base) s t next)
    (unmarked : t.timeline = s.timeline) : Effect base s t next True where
  guarantees := guarantees
  exchanges := by
    intro holds
    rw [unmarked]
    exact iff_of_true holds trivial

theorem arrive_effect (sound : Sound base s) (request : Request) :
    Effect base s (arrive runtime s request).1 (arrive runtime s request).2 True := by
  apply idle_effect sound (idle_of_quiet (quiet_arrive runtime s request))
  cases request with
  | login identifier password =>
    simp only [arrive]
    split
    · exact owned_none
    · split
      · exact owned_none
      · exact owned_some trivial
  | refreshSession | logout | forgotPassword | resetPassword => exact owned_some trivial
  | tick => exact owned_none

theorem foundUser_own (sound : Sound base s) (username password : Text) (maxAttempts : ℕ) :
    ∀ call ∈ (foundUser s username password maxAttempts).2,
      Own base (foundUser s username password maxAttempts).1 call := by
  unfold foundUser findUser
  by_cases named : s.user.username = username ∨ s.user.email = some username
  · rw [if_pos named]
    dsimp only
    split
    · exact owned_some sound.version
    · exact owned_none
  · rw [if_neg named]
    exact owned_none

theorem compared_own {user : User} {readAt : ℕ} (version : user.authVersion = base + readAt)
    (username password : Text) (maxAttempts : ℕ) :
    ∀ call ∈ (comparedPassword runtime s username password maxAttempts user readAt).2,
      Own base (comparedPassword runtime s username password maxAttempts user readAt).1 call := by
  unfold comparedPassword
  split
  · exact owned_some version
  · exact owned_none

theorem resume_effect (sound : Sound base s) {call : Call} {answer : Answer}
    (own : Own base s call) (resumed : resume runtime s call answer = some (t, next)) :
    Effect base s t next (orderly s call answer) := by
  have same := idle_of_quiet (quiet_self s)
  cases resume_cases runtime resumed with
  | abandoned =>
    have free : orderly s call .failed = True := by
      cases call <;> rfl
    rw [free]
    exact idle_effect sound same owned_none
  | loginSettings => exact idle_effect sound same (owned_some trivial)
  | loginUser username password maxAttempts =>
    exact idle_effect sound (idle_of_quiet (quiet_foundUser s username password maxAttempts))
      (foundUser_own sound username password maxAttempts)
  | loginCompare username password maxAttempts user readAt =>
    have quiet := quiet_comparedPassword runtime s username password maxAttempts user readAt
    exact idle_effect sound (idle_of_quiet quiet) (compared_own own username password maxAttempts)
  | loginSession user readAt id token freshId fresh =>
    apply marked_effect (create_guarantees sound own freshId fresh s.now) rfl
    intro tokenHash same
    cases same
  | loginPurge before => exact unmarked_effect (purge_guarantees sound before) rfl
  | refreshFind tokenHash now => exact idle_effect sound same (found_own sound tokenHash now)
  | refreshRotate tokenHash now session user readAt id token fresh =>
    exact {
      guarantees := rotate_guarantees sound own fresh
      exchanges := rotate_exchanges sound own }
  | logoutIncrement now => exact unmarked_effect (increment_guarantees sound now) rfl
  | logoutRevoke now increment =>
    apply marked_effect (revoke_guarantees sound now own) rfl
    intro tokenHash same
    cases same
  | forgotFind email next goesOn =>
    apply idle_effect sound same
    rcases mem_pair.mp goesOn with stops | stores
    · rw [stops]
      exact owned_none
    · rw [stores]
      exact owned_some trivial
  | forgotUpdate id token => exact idle_effect sound (idle_store s _) owned_none
  | resetRefused => exact idle_effect sound same owned_none
  | resetFind => exact idle_effect sound same (owned_some trivial)
  | resetWeak => exact idle_effect sound same owned_none
  | resetStrength | resetHash => exact idle_effect sound same (owned_some trivial)
  | resetUpdate tokenHash passwordHash =>
    apply marked_effect (write_guarantees sound tokenHash passwordHash) rfl
    intro exchanged same
    cases same

theorem access_refused (sound : Sound base s) {access : JwtAuthPayload} {tokenHash : Text}
    {readAt : ℕ} (issued : .issued access tokenHash readAt ∈ s.timeline) {closed : Mark}
    (member : closed ∈ s.timeline) {increment : ℕ} (closes : closing closed = some increment)
    (earlier : readAt < increment) : validateAccessPayload s.user access = none := by
  have read := sound.issuedVersion access tokenHash readAt issued
  have bound := sound.closed closed member increment closes
  have current := sound.version
  have stale : access.ver ≠ s.user.authVersion := by omega
  unfold validateAccessPayload
  simp only [stale, ne_eq, not_false_eq_true, decide_true, Bool.or_true, ↓reduceIte, ite_self]

theorem rotationSafe_iff (sound : Sound base s) :
    RotationSafe s ↔ Always ExchangedOpen s.timeline := by
  constructor
  · exact RotationSafe.refresh
  · intro refresh
    exact {
      once := sound.once
      refresh := refresh
      access := fun access tokenHash readAt issued closed member increment closes earlier =>
        access_refused sound issued member closes earlier }

end Effects

section Runs

variable (runtime : Runtime)

theorem outline (base : ℕ) :
    Outline (service runtime) (fun _ _ _ => True) (Sound base) (Own base) where
  arrives _ request sound := (arrive_effect sound request).guarantees
  resumes _ _ _ _ _ sound own _ resumed := (resume_effect sound own resumed).guarantees

theorem created_mark {user : User} {settings : Settings} {now : Instant}
    (member : mark ∈ (created user settings now).timeline) : neutral mark = true := by
  obtain ⟨tokenHash, _, same⟩ := Option.map_eq_some_iff.mp (Option.mem_toList.mp member)
  rw [← same]
  rfl

theorem created_sound (user : User) (settings : Settings) (now : Instant) :
    Sound user.authVersion (created user settings now) where
  version := rfl
  issuedVersion access tokenHash readAt issued := absurd (created_mark issued) Bool.false_ne_true
  issuedOnce access tokenHash readAt access' readAt' issued :=
    absurd (created_mark issued) Bool.false_ne_true
  closed := by
    intro mark member increment closes
    have free := created_mark member
    have never : closing mark = none := by
      cases mark <;> first | rfl | cases free
    rw [never] at closes
    cases closes
  ids := nodup_nil
  hashes := nodup_nil
  origin := by
    intro session none
    cases none
  spent tokenHash exchanged := absurd (created_mark exchanged) Bool.false_ne_true
  once := by
    apply always_free
    intro mark member before tokenHash same
    have free := created_mark member
    rw [same] at free
    cases free

theorem created_open (user : User) (settings : Settings) (now : Instant) :
    Always ExchangedOpen (created user settings now).timeline := by
  apply always_free
  intro mark member before tokenHash same
  have free := created_mark member
  rw [same] at free
  cases free

theorem step_safe {s t : State} {event : Event} (holds : Holds (Sound base) (Own base) s)
    (taken : step runtime s event = some t) : Holds (Sound base) (Own base) t ∧
      (RotationSafe s.data → (RotationSafe t.data ↔ resumesIf orderly s event)) := by
  have free : resumesIf (fun _ _ _ => True) s event := by
    cases event with
    | arrive => trivial
    | resume => exact fun _ _ => trivial
  have kept := (outline runtime base).preserves s event t free holds taken
  refine ⟨kept, ?_⟩
  intro safe
  rw [rotationSafe_iff kept.shared]
  cases event with
  | arrive request =>
    cases taken
    exact (arrive_effect holds.shared request).exchanges safe.refresh
  | resume place answer =>
    obtain ⟨call, data, next, waiting, resumed, same⟩ := Interleaving.step_resume _ taken
    subst same
    have own := holds.own call (List.mem_of_getElem? waiting)
    rw [(resume_effect holds.shared own resumed).exchanges safe.refresh]
    constructor
    · intro allowed other found
      rw [waiting] at found
      cases found
      exact allowed
    · intro allowed
      exact allowed call waiting

/-- Every state of a run is safe exactly when each refresh that comes to its update finds its
session only if no password was reset since it read the user. -/
theorem rotation_safe_iff (user : User) (settings : Settings) (now : Instant) (events : List Event)
    (s : State) (reached : Runs.run (step runtime) (started user settings now) events = some s) :
    (∀ n t, Runs.run (step runtime) (started user settings now) (events.take n) = some t →
      RotationSafe t.data) ↔
    Runs.Allowed (step runtime) (resumesIf orderly) (started user settings now) events := by
  have sound := created_sound user settings now
  have starts : Holds (Sound user.authVersion) (Own user.authVersion)
      (started user settings now) := {
    shared := sound
    own := by
      intro call none
      cases none }
  apply Runs.prefixes_iff_allowed (step runtime) _ _ s events starts _ reached
  · intro s event t holds taken
    exact step_safe runtime holds taken
  · exact (rotationSafe_iff sound).mpr (created_open user settings now)

end Runs

def loggingIn : List Event :=
  [.arrive (.login "ana".toList "first".toList), .resume 0 .done, .resume 0 .done, .resume 0 .done,
    .resume 0 (.drawn "s1".toList "a".toList), .resume 0 .done]

/-- A refresh reads its session before a logout and comes to its update after it. -/
def refreshAroundLogout : List Event :=
  loggingIn ++
    [.arrive (.refreshSession "a".toList), .resume 0 .done, .arrive .logout, .resume 0 .done,
      .resume 0 .done, .resume 0 (.drawn [] "b".toList)]

theorem logout_safe : ∃ s,
    Runs.run (step plain) (started ana usual 0) refreshAroundLogout = some s ∧
    ((∀ n t, Runs.run (step plain) (started ana usual 0) (refreshAroundLogout.take n) = some t →
      RotationSafe t.data) ↔
    Runs.Allowed (step plain) (resumesIf orderly) (started ana usual 0) refreshAroundLogout) := by
  have some_ : (Runs.run (step plain) (started ana usual 0) refreshAroundLogout).isSome := by
    decide +kernel
  obtain ⟨s, reached⟩ := Option.isSome_iff_exists.mp some_
  exact ⟨s, reached, rotation_safe_iff plain ana usual 0 refreshAroundLogout s reached⟩

/-- The same around a password reset. -/
def refreshAroundReset : List Event :=
  loggingIn ++
    [.arrive (.refreshSession "a".toList), .resume 0 .done,
      .arrive (.forgotPassword "ana@x".toList), .resume 0 .done, .resume 0 (.drawn [] "r".toList),
      .arrive (.resetPassword "r".toList "second".toList), .resume 0 .done, .resume 0 .done,
      .resume 0 (.hashed "second".toList), .resume 0 .done, .resume 0 (.drawn [] "b".toList)]

theorem reset_overlooked : ∃ s,
    Runs.run (step plain) (started ana usual 0) refreshAroundReset = some s ∧
    ¬ RotationSafe s.data := by
  have marks : (Runs.run (step plain) (started ana usual 0) refreshAroundReset).map
      (fun s => s.data.timeline) =
      some [.issued (accessPayload ana) "b".toList 0, .exchanged "a".toList,
        .changed "r".toList 1, .requested "r".toList none,
        .issued (accessPayload ana) "a".toList 0, .evaluated] := by
    decide +kernel
  obtain ⟨s, reached, timeline⟩ := Option.map_eq_some_iff.mp marks
  refine ⟨s, reached, ?_⟩
  intro safe
  have open_ := safe.refresh [_] _ _ timeline "a".toList rfl (accessPayload ana) 0
    (by simp) (.changed "r".toList 1) (by simp) 1 rfl
  omega

end DracVms.SessionRotation
