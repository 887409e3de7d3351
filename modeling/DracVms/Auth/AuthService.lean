import DracVms.Database.Directory
import DracVms.Library.JsString
import DracVms.Library.KeyedTable
import DracVms.Library.Interleaving

namespace DracVms.AuthService

open Json (Text)
open JsString (trim)
open Database (Instant UserRole)
open Interleaving (GrowsBy Service growsBy_cons growsBy_self)

def resetTokenTtlMs : ℕ := 30 * 60 * 1000

def defaultRefreshInactivityDays : ℚ := 7

def lockoutMs : ℕ := 15 * 60 * 1000

structure User where
  id : Text
  name : Text
  username : Text
  email : Option Text
  passwordHash : Text
  role : UserRole
  isActive : Bool
  authVersion : ℕ
  resetTokenHash : Option Text
  resetTokenExpiresAt : Option Instant
  deriving DecidableEq

/-- A row of `AuthSession` of the account. -/
structure AuthSession where
  id : Text
  tokenHash : Text
  authVersion : ℕ
  expiresAt : Instant
  lastUsedAt : Instant
  revokedAt : Option Instant
  deriving DecidableEq

structure LoginAttempt where
  count : ℕ
  lockedUntil : Instant
  deriving DecidableEq

structure Settings where
  maxLoginAttempts : ℕ
  requireStrongPassword : Bool
  deriving DecidableEq

inductive TokenType where
  | access
  | stream
  | play
  | downloadZip
  deriving DecidableEq

structure JwtAuthPayload where
  sub : Text
  username : Text
  email : Text
  role : UserRole
  ver : ℕ
  type : TokenType
  deriving DecidableEq

structure AuthUser where
  id : Text
  name : Text
  username : Text
  email : Text
  role : UserRole
  deriving DecidableEq

/-- What the service takes from its libraries and its environment. -/
structure Runtime where
  toLowerCase : Text → Text
  sha256 : Text → Text
  /-- `bcrypt.compare`. -/
  compare : Text → Text → Bool
  /-- `AUTH_REFRESH_INACTIVITY_DAYS` as a number, if it is a finite one. -/
  refreshInactivityDays : Option ℚ

/-- `value || other`. -/
def orElse (value other : Text) : Text := if value = [] then other else value

def loginName (user : User) : Text := orElse user.username (user.email.getD [])

def contact (user : User) : Text := orElse (user.email.getD []) user.username

def sanitizeUser (user : User) : AuthUser :=
  { id := user.id
    name := user.name
    username := loginName user
    email := contact user
    role := user.role }

def accessPayload (user : User) : JwtAuthPayload :=
  { sub := user.id
    username := loginName user
    email := contact user
    role := user.role
    ver := user.authVersion
    type := .access }

/-- The length of a text in UTF-16 units. -/
def unitLength (text : Text) : ℕ := (text.map fun c => if c.toNat < 0x10000 then 1 else 2).sum

def isStrong (password : Text) : Bool :=
  decide (12 ≤ unitLength password) && password.any Char.isLower && password.any Char.isUpper &&
    password.any Char.isDigit

/-- What has happened to the account, as far as later events are measured against it. -/
inductive Mark where
  /-- A pair of tokens was issued by a call that read the user after `readAt` increments. -/
  | issued (access : JwtAuthPayload) (tokenHash : Text) (readAt : ℕ)
  | exchanged (tokenHash : Text)
  /-- A logout has completed; its increment of `authVersion` was the `increment`-th. -/
  | loggedOut (increment : ℕ)
  | requested (tokenHash : Text) (replaced : Option Text)
  | changed (tokenHash : Text) (increment : ℕ)
  | evaluated
  | expired
  deriving DecidableEq

/-- One account with its sessions, and the service's own table of login attempts. -/
structure Account where
  user : User
  sessions : List AuthSession
  loginAttempts : KeyedTable Text LoginAttempt
  settings : Settings
  now : Instant
  /-- How often `authVersion` has been incremented. -/
  increments : ℕ
  /-- What has happened, the latest first. -/
  timeline : List Mark

/-- Where a call waits for its next answer, with what it has read until then. -/
inductive Call where
  | loginSettings (username password : Text)
  | loginUser (username password : Text) (maxAttempts : ℕ)
  | loginCompare (username password : Text) (maxAttempts : ℕ) (user : User) (readAt : ℕ)
  | loginSession (user : User) (readAt : ℕ)
  | loginPurge (before : Instant)
  | refreshFind (tokenHash : Text) (now : Instant)
  | refreshRotate (tokenHash : Text) (now : Instant) (session : AuthSession) (user : User)
      (readAt : ℕ)
  | logoutIncrement (now : Instant)
  | logoutRevoke (now : Instant) (increment : ℕ)
  | forgotFind (email : Text)
  | forgotUpdate
  | resetFind (tokenHash newPassword : Text)
  | resetStrength (tokenHash newPassword : Text)
  | resetHash (tokenHash newPassword : Text)
  | resetUpdate (tokenHash passwordHash : Text)
  deriving DecidableEq

inductive Request where
  | login (identifier password : Text)
  | refreshSession (refreshToken : Text)
  | logout
  | forgotPassword (email : Text)
  | resetPassword (token newPassword : Text)
  /-- Time passes. -/
  | tick (elapsed : ℕ)
  deriving DecidableEq

inductive Answer where
  | done
  | failed
  /-- The query was made with values that were drawn just before it. -/
  | drawn (id token : Text)
  | hashed (passwordHash : Text)
  deriving DecidableEq

section AuthService

variable (runtime : Runtime)

def refreshInactivityMs : ℕ :=
  let days := match runtime.refreshInactivityDays with
    | some configured => max 1 (min 30 configured)
    | none => defaultRefreshInactivityDays
  ⌊days * 24 * 60 * 60 * 1000⌋₊

def record (s : Account) (mark : Mark) : Account := { s with timeline := mark :: s.timeline }

def attemptsOf (s : Account) (username : Text) : LoginAttempt :=
  (s.loginAttempts.get username).getD { count := 0, lockedUntil := 0 }

def isLocked (s : Account) (username : Text) : Bool :=
  decide (s.now < (attemptsOf s username).lockedUntil)

def registerFailedAttempt (s : Account) (username : Text) (maxAttempts : ℕ) : Account :=
  let current := attemptsOf s username
  let count := current.count + 1
  let next : LoginAttempt :=
    if maxAttempts ≤ count then { count := 0, lockedUntil := s.now + lockoutMs }
    else { current with count := count }
  { s with loginAttempts := s.loginAttempts.put (username, next) }

/-- The names under which the account logs in. -/
def identifiers (user : User) : List Text := (user.username :: user.email.toList).dedup

def lockoutExpires (s : Account) (later : Instant) : Bool :=
  (identifiers s.user).any fun username =>
    isLocked s username && decide ((attemptsOf s username).lockedUntil ≤ later)

def tick (s : Account) (elapsed : ℕ) : Account :=
  let later := s.now + elapsed
  let passed := if lockoutExpires s later then record s .expired else s
  { passed with now := later }

/-- What a request does until its first awaited answer. -/
def arrive (s : Account) : Request → Account × Option Call
  | .login identifier password =>
    let username := runtime.toLowerCase (trim identifier)
    if username = [] then (s, none)
    else if isLocked s username then (s, none)
    else (s, some (.loginSettings username password))
  | .refreshSession refreshToken => (s, some (.refreshFind (runtime.sha256 refreshToken) s.now))
  | .logout => (s, some (.logoutIncrement s.now))
  | .forgotPassword email => (s, some (.forgotFind (runtime.toLowerCase (trim email))))
  | .resetPassword token newPassword =>
    (s, some (.resetFind (runtime.sha256 token) newPassword))
  | .tick elapsed => (tick s elapsed, none)

def findUser (s : Account) (username : Text) : Option User :=
  if s.user.username = username ∨ s.user.email = some username then some s.user else none

/-- `login` once the user has been read. -/
def foundUser (s : Account) (username password : Text) (maxAttempts : ℕ) : Account × Option Call :=
  match findUser s username with
  | some user =>
    if user.isActive then
      (s, some (.loginCompare username password maxAttempts user s.increments))
    else (registerFailedAttempt s username maxAttempts, none)
  | none => (registerFailedAttempt s username maxAttempts, none)

/-- `login` once the password has been compared. -/
def comparedPassword (s : Account) (username password : Text) (maxAttempts : ℕ) (user : User)
    (readAt : ℕ) : Account × Option Call :=
  let evaluated := record s .evaluated
  if runtime.compare password user.passwordHash then
    ({ evaluated with loginAttempts := evaluated.loginAttempts.keep (· ≠ username) },
      some (.loginSession user readAt))
  else (registerFailedAttempt evaluated username maxAttempts, none)

def issuedHash : Mark → Option Text
  | .issued _ tokenHash _ => some tokenHash
  | _ => none

def requestedHash : Mark → Option Text
  | .requested tokenHash _ => some tokenHash
  | _ => none

/-- The hashes of the refresh tokens that were issued so far. -/
def issuedHashes (s : Account) : List Text := s.timeline.filterMap issuedHash

def requestedHashes (s : Account) : List Text := s.timeline.filterMap requestedHash

def createRefreshSession (s : Account) (user : User) (readAt : ℕ) (id tokenHash : Text) : Account :=
  let session : AuthSession :=
    { id := id
      tokenHash := tokenHash
      authVersion := user.authVersion
      expiresAt := s.now + refreshInactivityMs runtime
      lastUsedAt := s.now
      revokedAt := none }
  record { s with sessions := session :: s.sessions }
    (.issued (accessPayload user) tokenHash readAt)

def purgeSessions (s : Account) (before : Instant) : Account :=
  { s with
    sessions := s.sessions.filter fun session =>
      !(decide (session.expiresAt < before) || session.revokedAt.isSome) }

/-- `refreshSession` once the session has been read with its user. -/
def foundSession (s : Account) (tokenHash : Text) (now : Instant) : Option Call :=
  match s.sessions.find? fun session => session.tokenHash = tokenHash with
  | some session =>
    if session.revokedAt.isSome || decide (session.expiresAt ≤ now) || !s.user.isActive ||
        decide (session.authVersion ≠ s.user.authVersion) then none
    else some (.refreshRotate tokenHash now session s.user s.increments)
  | none => none

/-- The rows that the update of `refreshSession` is about. -/
def rotates (tokenHash : Text) (now : Instant) (read : AuthSession) (user : User)
    (session : AuthSession) : Bool :=
  decide (session.id = read.id) && decide (session.tokenHash = tokenHash) &&
    session.revokedAt.isNone && decide (now < session.expiresAt) &&
    decide (session.authVersion = user.authVersion)

def rotateSession (s : Account) (tokenHash : Text) (now : Instant) (read : AuthSession)
    (user : User) (readAt : ℕ) (nextHash : Text) : Account :=
  let matched := rotates tokenHash now read user
  let rotated : Account :=
    { s with
      sessions := s.sessions.map fun session =>
        if matched session then
          { session with
            tokenHash := nextHash
            expiresAt := now + refreshInactivityMs runtime
            lastUsedAt := now }
        else session }
  if s.sessions.countP matched = 1 then
    record (record rotated (.exchanged tokenHash)) (.issued (accessPayload user) nextHash readAt)
  else rotated

def validateAccessPayload (user : User) (payload : JwtAuthPayload) : Option AuthUser :=
  if payload.type ≠ .access then none
  else if user.id ≠ payload.sub then none
  else if !user.isActive || decide (payload.ver ≠ user.authVersion) then none
  else some (sanitizeUser user)

def incrementVersion (s : Account) : Account :=
  { s with
    user := { s.user with authVersion := s.user.authVersion + 1 }
    increments := s.increments + 1 }

def revokeSessions (s : Account) (now : Instant) : Account :=
  { s with
    sessions := s.sessions.map fun session =>
      if session.revokedAt.isNone then { session with revokedAt := some now } else session }

def storeResetToken (s : Account) (tokenHash : Text) : Account :=
  record
    { s with
      user :=
        { s.user with
          resetTokenHash := some tokenHash
          resetTokenExpiresAt := some (s.now + resetTokenTtlMs) } }
    (.requested tokenHash s.user.resetTokenHash)

/-- `resetPassword` lets through a token that the user's row holds and that has not expired. -/
def holdsResetToken (s : Account) (tokenHash : Text) : Bool :=
  decide (s.user.resetTokenHash = some tokenHash) &&
    s.user.resetTokenExpiresAt.any fun expiresAt => decide (s.now ≤ expiresAt)

def writePassword (s : Account) (tokenHash passwordHash : Text) : Account :=
  let incremented := incrementVersion s
  record
    { incremented with
      user :=
        { incremented.user with
          passwordHash := passwordHash
          resetTokenHash := none
          resetTokenExpiresAt := none } }
    (.changed tokenHash incremented.increments)

/-- What a call does with the answer that it waited for, until the next one. A run in which a drawn
value repeats is left out. -/
def resume (s : Account) : Call → Answer → Option (Account × Option Call)
  | .loginSettings username password, .done =>
    some (s, some (.loginUser username password s.settings.maxLoginAttempts))
  | .loginSettings username password, .failed => some (s, some (.loginUser username password 5))
  | .loginUser username password maxAttempts, .done =>
    some (foundUser s username password maxAttempts)
  | .loginCompare username password maxAttempts user readAt, .done =>
    some (comparedPassword runtime s username password maxAttempts user readAt)
  | .loginSession user readAt, .drawn id token =>
    if id ∈ s.sessions.map AuthSession.id ∨ runtime.sha256 token ∈ issuedHashes s then none
    else some (createRefreshSession runtime s user readAt id (runtime.sha256 token),
      some (.loginPurge s.now))
  | .loginPurge before, .done => some (purgeSessions s before, none)
  | .refreshFind tokenHash now, .done => some (s, foundSession s tokenHash now)
  | .refreshRotate tokenHash now session user readAt, .drawn _ token =>
    if runtime.sha256 token ∈ issuedHashes s then none
    else some (rotateSession runtime s tokenHash now session user readAt (runtime.sha256 token),
      none)
  | .logoutIncrement now, .done =>
    some (incrementVersion s, some (.logoutRevoke now (s.increments + 1)))
  | .logoutRevoke now increment, .done =>
    some (record (revokeSessions s now) (.loggedOut increment), none)
  | .forgotFind email, .done =>
    some (s, if s.user.email = some email && s.user.isActive then some .forgotUpdate else none)
  | .forgotUpdate, .drawn _ token =>
    if runtime.sha256 token ∈ requestedHashes s then none
    else some (storeResetToken s (runtime.sha256 token), none)
  | .resetFind tokenHash newPassword, .done =>
    some (s, if holdsResetToken s tokenHash then some (.resetStrength tokenHash newPassword)
      else none)
  | .resetStrength tokenHash newPassword, .done =>
    some (s, if s.settings.requireStrongPassword && !isStrong newPassword then none
      else some (.resetHash tokenHash newPassword))
  | .resetStrength tokenHash newPassword, .failed =>
    some (s, some (.resetHash tokenHash newPassword))
  | .resetHash tokenHash _, .hashed passwordHash =>
    some (s, some (.resetUpdate tokenHash passwordHash))
  | .resetUpdate tokenHash passwordHash, .done =>
    some (writePassword s tokenHash passwordHash, none)
  | _, .failed => some (s, none)
  | _, _ => none

/-- What may follow an answer. -/
inductive Resumed (s : Account) : Call → Answer → Account → Option Call → Prop where
  | abandoned (call : Call) : Resumed s call .failed s none
  | loginSettings (username password : Text) (answer : Answer) (maxAttempts : ℕ) :
      Resumed s (.loginSettings username password) answer s
        (some (.loginUser username password maxAttempts))
  | loginUser (username password : Text) (maxAttempts : ℕ) :
      Resumed s (.loginUser username password maxAttempts) .done
        (foundUser s username password maxAttempts).1 (foundUser s username password maxAttempts).2
  | loginCompare (username password : Text) (maxAttempts : ℕ) (user : User) (readAt : ℕ) :
      Resumed s (.loginCompare username password maxAttempts user readAt) .done
        (comparedPassword runtime s username password maxAttempts user readAt).1
        (comparedPassword runtime s username password maxAttempts user readAt).2
  | loginSession (user : User) (readAt : ℕ) (id token : Text)
      (freshId : id ∉ s.sessions.map AuthSession.id)
      (fresh : runtime.sha256 token ∉ issuedHashes s) :
      Resumed s (.loginSession user readAt) (.drawn id token)
        (createRefreshSession runtime s user readAt id (runtime.sha256 token))
        (some (.loginPurge s.now))
  | loginPurge (before : Instant) :
      Resumed s (.loginPurge before) .done (purgeSessions s before) none
  | refreshFind (tokenHash : Text) (now : Instant) :
      Resumed s (.refreshFind tokenHash now) .done s (foundSession s tokenHash now)
  | refreshRotate (tokenHash : Text) (now : Instant) (session : AuthSession) (user : User)
      (readAt : ℕ) (id token : Text) (fresh : runtime.sha256 token ∉ issuedHashes s) :
      Resumed s (.refreshRotate tokenHash now session user readAt) (.drawn id token)
        (rotateSession runtime s tokenHash now session user readAt (runtime.sha256 token)) none
  | logoutIncrement (now : Instant) :
      Resumed s (.logoutIncrement now) .done (incrementVersion s)
        (some (.logoutRevoke now (s.increments + 1)))
  | logoutRevoke (now : Instant) (increment : ℕ) :
      Resumed s (.logoutRevoke now increment) .done
        (record (revokeSessions s now) (.loggedOut increment)) none
  | forgotFind (email : Text) (next : Option Call) (goesOn : next ∈ [none, some .forgotUpdate]) :
      Resumed s (.forgotFind email) .done s next
  | forgotUpdate (id token : Text) (fresh : runtime.sha256 token ∉ requestedHashes s) :
      Resumed s .forgotUpdate (.drawn id token) (storeResetToken s (runtime.sha256 token)) none
  | resetRefused (tokenHash newPassword : Text) :
      Resumed s (.resetFind tokenHash newPassword) .done s none
  | resetFind (tokenHash newPassword : Text) (stored : s.user.resetTokenHash = some tokenHash) :
      Resumed s (.resetFind tokenHash newPassword) .done s
        (some (.resetStrength tokenHash newPassword))
  | resetWeak (tokenHash newPassword : Text) :
      Resumed s (.resetStrength tokenHash newPassword) .done s none
  | resetStrength (tokenHash newPassword : Text) (answer : Answer) :
      Resumed s (.resetStrength tokenHash newPassword) answer s
        (some (.resetHash tokenHash newPassword))
  | resetHash (tokenHash newPassword passwordHash : Text) :
      Resumed s (.resetHash tokenHash newPassword) (.hashed passwordHash) s
        (some (.resetUpdate tokenHash passwordHash))
  | resetUpdate (tokenHash passwordHash : Text) :
      Resumed s (.resetUpdate tokenHash passwordHash) .done (writePassword s tokenHash passwordHash)
        none

theorem resume_cases {s t : Account} {call : Call} {answer : Answer} {next : Option Call}
    (resumed : resume runtime s call answer = some (t, next)) :
    Resumed runtime s call answer t next := by
  cases answer with
  | failed =>
    cases call with
    | loginSettings username password =>
      cases resumed
      exact .loginSettings username password .failed 5
    | resetStrength tokenHash newPassword =>
      cases resumed
      exact .resetStrength tokenHash newPassword .failed
    | loginUser | loginCompare | loginSession | loginPurge | refreshFind | refreshRotate
    | logoutIncrement | logoutRevoke | forgotFind | forgotUpdate | resetFind | resetHash
    | resetUpdate => cases resumed; exact .abandoned _
  | hashed passwordHash =>
    cases call with
    | resetHash tokenHash newPassword =>
      cases resumed
      exact .resetHash tokenHash newPassword passwordHash
    | _ => cases resumed
  | drawn id token =>
    cases call with
    | loginSession user readAt =>
      simp only [resume, Option.ite_none_left_eq_some, not_or, Option.some.injEq,
        Prod.mk.injEq] at resumed
      obtain ⟨⟨freshId, fresh⟩, created, waits⟩ := resumed
      rw [← created, ← waits]
      exact .loginSession user readAt id token freshId fresh
    | refreshRotate tokenHash now session user readAt =>
      simp only [resume, Option.ite_none_left_eq_some, Option.some.injEq, Prod.mk.injEq] at resumed
      obtain ⟨fresh, rotated, waits⟩ := resumed
      rw [← rotated, ← waits]
      exact .refreshRotate tokenHash now session user readAt id token fresh
    | forgotUpdate =>
      simp only [resume, Option.ite_none_left_eq_some, Option.some.injEq, Prod.mk.injEq] at resumed
      obtain ⟨fresh, stored, waits⟩ := resumed
      rw [← stored, ← waits]
      exact .forgotUpdate id token fresh
    | _ => cases resumed
  | done =>
    cases call with
    | loginSettings username password =>
      cases resumed
      exact .loginSettings username password .done s.settings.maxLoginAttempts
    | loginUser username password maxAttempts =>
      have pair := Option.some.inj resumed
      have found := @Resumed.loginUser runtime s username password maxAttempts
      rw [pair] at found
      exact found
    | loginCompare username password maxAttempts user readAt =>
      have pair := Option.some.inj resumed
      have compared := @Resumed.loginCompare runtime s username password maxAttempts user readAt
      rw [pair] at compared
      exact compared
    | loginPurge before =>
      cases resumed
      exact .loginPurge before
    | refreshFind tokenHash now =>
      cases resumed
      exact .refreshFind tokenHash now
    | logoutIncrement now =>
      cases resumed
      exact .logoutIncrement now
    | logoutRevoke now increment =>
      cases resumed
      exact .logoutRevoke now increment
    | forgotFind email =>
      cases resumed
      apply Resumed.forgotFind
      split
      · exact List.mem_cons_of_mem _ List.mem_cons_self
      · exact List.mem_cons_self
    | resetFind tokenHash newPassword =>
      cases resumed
      by_cases held : holdsResetToken s tokenHash = true
      · rw [if_pos held]
        rw [holdsResetToken, Bool.and_eq_true, decide_eq_true_eq] at held
        exact .resetFind tokenHash newPassword held.1
      · rw [if_neg held]
        exact .resetRefused tokenHash newPassword
    | resetStrength tokenHash newPassword =>
      cases resumed
      split
      · exact .resetWeak tokenHash newPassword
      · exact .resetStrength tokenHash newPassword .done
    | resetUpdate tokenHash passwordHash =>
      cases resumed
      exact .resetUpdate tokenHash passwordHash
    | _ => cases resumed

/-- A step that concerns neither the user's row nor the sessions. -/
structure Quiet (s t : Account) : Prop where
  user : t.user = s.user
  sessions : t.sessions = s.sessions
  increments : t.increments = s.increments
  timeline : GrowsBy (fun mark => mark = .evaluated ∨ mark = .expired) s.timeline t.timeline

variable (s : Account)

theorem quiet_self : Quiet s s where
  user := rfl
  sessions := rfl
  increments := rfl
  timeline := growsBy_self

theorem quiet_tick (elapsed : ℕ) : Quiet s (tick s elapsed) := by
  unfold tick
  dsimp only
  by_cases expires : lockoutExpires s (s.now + elapsed)
  · rw [if_pos expires]
    exact {
      user := rfl
      sessions := rfl
      increments := rfl
      timeline := growsBy_cons (Or.inr rfl) }
  · rw [if_neg expires]
    exact { quiet_self s with }

theorem quiet_arrive (request : Request) : Quiet s (arrive runtime s request).1 := by
  cases request with
  | login identifier password =>
    simp only [arrive]
    split
    · exact quiet_self s
    · split
      all_goals exact quiet_self s
  | refreshSession | logout | forgotPassword | resetPassword => exact quiet_self s
  | tick elapsed => exact quiet_tick s elapsed

theorem quiet_register (username : Text) (maxAttempts : ℕ) :
    Quiet s (registerFailedAttempt s username maxAttempts) := { quiet_self s with }

theorem quiet_foundUser (username password : Text) (maxAttempts : ℕ) :
    Quiet s (foundUser s username password maxAttempts).1 := by
  unfold foundUser
  split
  · split
    · exact quiet_self s
    · exact quiet_register s username maxAttempts
  · exact quiet_register s username maxAttempts

theorem quiet_comparedPassword (username password : Text) (maxAttempts : ℕ) (user : User)
    (readAt : ℕ) :
    Quiet s (comparedPassword runtime s username password maxAttempts user readAt).1 := by
  have marked : GrowsBy (fun mark => mark = .evaluated ∨ mark = .expired) s.timeline
      (.evaluated :: s.timeline) := growsBy_cons (Or.inl rfl)
  unfold comparedPassword
  split
  all_goals exact { user := rfl, sessions := rfl, increments := rfl, timeline := marked }

def service : Service Account Request Call Answer where
  arrive := arrive runtime
  resume := resume runtime

abbrev State := Interleaving.State Account Call

abbrev Event := Interleaving.Event Request Answer

def step : State → Event → Option State := Interleaving.step (service runtime)

/-- An account without sessions; a reset token that its row holds has been requested before. -/
def created (user : User) (settings : Settings) (now : Instant) : Account :=
  { user := user
    sessions := []
    loginAttempts := KeyedTable.empty
    settings := settings
    now := now
    increments := 0
    timeline := (user.resetTokenHash.map fun tokenHash => .requested tokenHash none).toList }

def started (user : User) (settings : Settings) (now : Instant) : State :=
  { data := created user settings now, calls := [] }

end AuthService

/-- A runtime that keeps its secrets as they are. -/
def plain : Runtime :=
  { toLowerCase := JsString.toLowerCase
    sha256 := id
    compare := fun password hash => password = hash
    refreshInactivityDays := none }

def ana : User :=
  { id := "u1".toList
    name := "Ana".toList
    username := "ana".toList
    email := some "ana@x".toList
    passwordHash := "first".toList
    role := .viewer
    isActive := true
    authVersion := 0
    resetTokenHash := none
    resetTokenExpiresAt := none }

def usual : Settings := { maxLoginAttempts := 5, requireStrongPassword := false }

end DracVms.AuthService
