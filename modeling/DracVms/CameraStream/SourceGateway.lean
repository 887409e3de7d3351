import DracVms.Library.JsString
import DracVms.Library.KeyedList

namespace DracVms.SourceGateway

open Json (Text setField field)
open KeyedList (updateAt lookup)

inductive SourceProfile where
  | main
  | sub
  deriving DecidableEq, Repr

def SourceProfile.text : SourceProfile → Text
  | .main => ['m', 'a', 'i', 'n']
  | .sub => ['s', 'u', 'b']

inductive SourceState where
  | idle
  | connecting
  | online
  | stalled
  | backoff
  | circuitOpen
  deriving DecidableEq, Repr

inductive RtspTransport where
  | tcp
  | udp
  deriving DecidableEq, Repr

/-- The settings as read at a call: the flag as text, a number when `Number` gives a finite one. -/
structure Settings where
  enabled : Text
  maxExternalPerCamera : Option ℚ
  stallTimeoutMs : Option ℚ
  backoffBaseMs : Option ℚ
  backoffCapMs : Option ℚ
  backoffJitter : Option ℚ
  circuitThreshold : Option ℚ
  circuitOpenMs : Option ℚ
  circuitMaxOpenMs : Option ℚ
  idleTtlMs : Option ℚ

def positive (value : Option ℚ) (fallback : ℚ) : ℚ :=
  match value with
  | some parsed => if 0 < parsed then parsed else fallback
  | none => fallback

def nonNegative (value : Option ℚ) (fallback : ℚ) : ℚ :=
  match value with
  | some parsed => if 0 ≤ parsed then parsed else fallback
  | none => fallback

def clamp01 (parsed : ℚ) : ℚ := if parsed ≤ 0 then 0 else min 1 parsed

def normalizeSourceProfile (value : Text) : SourceProfile :=
  if JsString.toLowerCase (JsString.trim value) = SourceProfile.sub.text then .sub else .main

namespace Settings

variable (cfg : Settings)

def isEnabled : Bool :=
  JsString.toLowerCase (JsString.trim cfg.enabled) = ['t', 'r', 'u', 'e']

def maxExternalConnectionsPerCamera : ℕ := max 1 ⌊positive cfg.maxExternalPerCamera 2⌋.toNat

def stallTimeout : ℚ := positive cfg.stallTimeoutMs 20000

def threshold : ℕ := max 1 ⌊positive cfg.circuitThreshold 5⌋.toNat

def circuitOpen : ℚ := positive cfg.circuitOpenMs 60000

def circuitMaxOpen : ℚ := max cfg.circuitOpen (positive cfg.circuitMaxOpenMs 480000)

def idleTtl : ℚ := positive cfg.idleTtlMs 300000

/-- `computeBackoffDelayMs` with the options of the service. -/
def computeBackoffDelayMs (attempt : ℕ) (random : ℚ) : ℚ :=
  let baseMs := positive cfg.backoffBaseMs 1000
  let capMs := positive cfg.backoffCapMs 60000
  let jitter := clamp01 (nonNegative cfg.backoffJitter (1 / 5))
  let n := max 1 attempt
  let raw := if 53 ≤ n then capMs else baseMs * 2 ^ (n - 1)
  let delay := min capMs raw
  if jitter ≤ 0 then max 0 delay else max 0 (delay * (1 + jitter * (2 * random - 1)))

end Settings

/-- An origin of the registry; `consumers` maps the lease to its consumer, in insertion order. -/
structure SourceEntry where
  cameraId : Text
  profile : SourceProfile
  state : SourceState
  consumers : List (Text × Text)
  publishedUrl : Option Text
  transport : Option RtspTransport
  lastPacketAtMs : Option ℚ
  lastFrameAtMs : Option ℚ
  consecutiveFailures : ℕ
  attempt : ℕ
  lastBackoffMs : Option ℚ
  nextAttemptAtMs : Option ℚ
  circuitOpenUntilMs : Option ℚ
  circuitCooldownMs : Option ℚ
  degraded : Bool
  touchedAtMs : ℚ
  deriving DecidableEq

structure LeaseRef where
  key : Text
  cameraId : Text
  deriving DecidableEq

structure Counters where
  acquisitions : ℕ
  releases : ℕ
  cappedAcquisitions : ℕ
  stalls : ℕ
  failures : ℕ
  recoveries : ℕ
  circuitOpens : ℕ

/-- The maps of the service, in insertion order. -/
structure Gateway where
  entries : List SourceEntry
  leases : List (Text × LeaseRef)
  leaseSeq : ℕ
  counters : Counters

def opened : Gateway := ⟨[], [], 0, ⟨0, 0, 0, 0, 0, 0, 0⟩⟩

structure SourceLease where
  id : Text
  cameraId : Text
  consumer : Text
  requestedProfile : SourceProfile
  servedProfile : SourceProfile
  gatewayEnabled : Bool
  capped : Bool

def MAX_TRACKED_SOURCES : ℕ := 2000

def key (cameraId : Text) (profile : SourceProfile) : Text := cameraId ++ ':' :: ':' :: profile.text

def SourceEntry.key (entry : SourceEntry) : Text := SourceGateway.key entry.cameraId entry.profile

def leaseId (n : ℕ) : Text := ['l', 'e', 'a', 's', 'e', '_'] ++ Nat.toDigits 10 n

namespace SourceEntry

/-- The origin holds, or is opening, an external connection now. -/
def isActive (entry : SourceEntry) : Bool :=
  !entry.consumers.isEmpty || entry.state = .connecting || entry.state = .online

/-- `circuitOpenUntilMs != null && now < circuitOpenUntilMs`. -/
def cooling (entry : SourceEntry) (now : ℚ) : Bool :=
  match entry.circuitOpenUntilMs with
  | some until' => now < until'
  | none => false

end SourceEntry

def activeIn (entries : List SourceEntry) (cameraId : Text) : List SourceEntry :=
  entries.filter fun entry => entry.cameraId = cameraId && entry.isActive

/-- The active origins of the camera under the other profile. -/
def othersIn (entries : List SourceEntry) (cameraId : Text) (profile : SourceProfile) :
    List SourceEntry :=
  (activeIn entries cameraId).filter fun entry => entry.profile ≠ profile

def pickSubstitute (candidates : List SourceEntry) : Option SourceEntry :=
  let online := candidates.filter fun entry => entry.state = .online
  let pool := if online.isEmpty then candidates else online
  (pool.find? fun entry => entry.profile = .main).or pool.head?

/-- The oldest origin without a consumer; the first one of them among equals. -/
def oldestIdle (entries : List SourceEntry) : Option SourceEntry :=
  entries.foldl
    (fun oldest entry =>
      if !entry.consumers.isEmpty then oldest
      else match oldest with
        | none => some entry
        | some other => if entry.touchedAtMs < other.touchedAtMs then some entry else oldest)
    none

def freshEntry (cameraId : Text) (profile : SourceProfile) (now : ℚ) : SourceEntry :=
  { cameraId, profile, state := .idle, consumers := [], publishedUrl := none, transport := none,
    lastPacketAtMs := none, lastFrameAtMs := none, consecutiveFailures := 0, attempt := 0,
    lastBackoffMs := none, nextAttemptAtMs := none, circuitOpenUntilMs := none,
    circuitCooldownMs := none, degraded := false, touchedAtMs := now }

namespace Gateway

def activeEntries (s : Gateway) (cameraId : Text) : List SourceEntry := activeIn s.entries cameraId

def externalConnections (s : Gateway) (cameraId : Text) : ℕ := (s.activeEntries cameraId).length

def entryAt (s : Gateway) (k : Text) : Option SourceEntry := lookup SourceEntry.key s.entries k

/-- The object of the map changes in place. -/
def change (s : Gateway) (k : Text) (changed : SourceEntry → SourceEntry) : Gateway :=
  { s with entries := updateAt SourceEntry.key s.entries k changed }

/-- The registry without the oldest idle origin, when there is one. -/
def evictOneIdle (s : Gateway) : Option Gateway :=
  (oldestIdle s.entries).map fun oldest =>
    { s with entries := s.entries.filter fun entry => entry.key ≠ oldest.key }

def ensureEntry (s : Gateway) (cameraId : Text) (profile : SourceProfile) (now : ℚ) :
    Option (Gateway × SourceEntry) :=
  match s.entryAt (key cameraId profile) with
  | some existing => some (s, existing)
  | none =>
    let entry := freshEntry cameraId profile now
    let room := if MAX_TRACKED_SOURCES ≤ s.entries.length then s.evictOneIdle else some s
    room.map fun left => ({ left with entries := left.entries ++ [entry] }, entry)

def registerPublishedSource (cfg : Settings) (now : ℚ) (s : Gateway) (cameraId profile : Text)
    (url : Option Text) : Gateway :=
  if cfg.isEnabled then
    match s.ensureEntry cameraId (normalizeSourceProfile profile) now with
    | none => s
    | some (s, entry) =>
      s.change entry.key fun entry =>
        { entry with
          publishedUrl := url.filter fun text => !(JsString.trim text).isEmpty
          touchedAtMs := now }
  else s

/-- `!entry || entry.consumers.size === 0`: the acquisition would open a connection. -/
def opens (s : Gateway) (cameraId : Text) (profile : SourceProfile) : Bool :=
  match s.entryAt (key cameraId profile) with
  | none => true
  | some entry => entry.consumers.isEmpty

/-- The origin that serves an acquisition beyond the cap. -/
def substituteFor (cfg : Settings) (s : Gateway) (cameraId : Text) (profile : SourceProfile) :
    Option SourceEntry :=
  if s.opens cameraId profile then
    let others := othersIn s.entries cameraId profile
    if cfg.maxExternalConnectionsPerCamera ≤ others.length then pickSubstitute others else none
  else none

/-- The entry after a consumer joined. -/
def join (now : ℚ) (id consumer : Text) (entry : SourceEntry) : SourceEntry :=
  { entry with
    state := if entry.state = .idle then .connecting else entry.state
    consumers := setField entry.consumers (id, consumer)
    touchedAtMs := now }

def attach (now : ℚ) (id consumer : Text) (s : Gateway) (entry : SourceEntry) : Gateway :=
  let changed := s.change entry.key (join now id consumer)
  { changed with
    leases := setField s.leases (id, ⟨entry.key, entry.cameraId⟩)
    counters := { s.counters with acquisitions := s.counters.acquisitions + 1 } }

def acquire (cfg : Settings) (now : ℚ) (s : Gateway) (cameraId profile consumer : Text) :
    Gateway × SourceLease :=
  let requestedProfile := normalizeSourceProfile profile
  let id := leaseId (s.leaseSeq + 1)
  let s := { s with leaseSeq := s.leaseSeq + 1 }
  let lease (served : SourceProfile) (gatewayEnabled capped : Bool) : SourceLease :=
    { id, cameraId, consumer, requestedProfile, servedProfile := served, gatewayEnabled, capped }
  if cfg.isEnabled then
    match s.substituteFor cfg cameraId requestedProfile with
    | some substitute =>
      let counted :=
        { s with
          counters :=
            { s.counters with cappedAcquisitions := s.counters.cappedAcquisitions + 1 } }
      (counted.attach now id consumer substitute, lease substitute.profile true true)
    | none =>
      match s.ensureEntry cameraId requestedProfile now with
      | none => (s, lease requestedProfile true false)
      | some (s, entry) => (s.attach now id consumer entry, lease entry.profile true false)
  else (s, lease requestedProfile false false)

/-- The entry after a consumer left; the last one leaves it idle, or in its open circuit. -/
def leave (now : ℚ) (id : Text) (entry : SourceEntry) : SourceEntry :=
  let consumers := entry.consumers.filter fun consumer => consumer.1 ≠ id
  { entry with
    consumers
    touchedAtMs := now
    state :=
      if consumers.isEmpty then if entry.cooling now then .circuitOpen else .idle
      else entry.state }

def release (now : ℚ) (s : Gateway) (id : Text) : Gateway :=
  if id.isEmpty then s
  else
    match field s.leases id with
    | none => s
    | some ref =>
      let forgotten := { s with leases := s.leases.filter fun lease => lease.1 ≠ id }
      match s.entryAt ref.key with
      | none => forgotten
      | some _ =>
        let changed := forgotten.change ref.key (leave now id)
        { changed with
          counters := { s.counters with releases := s.counters.releases + 1 } }

def noteConnecting (cfg : Settings) (now : ℚ) (s : Gateway) (cameraId profile : Text) : Gateway :=
  if cfg.isEnabled then
    match s.ensureEntry cameraId (normalizeSourceProfile profile) now with
    | none => s
    | some (s, entry) =>
      s.change entry.key fun entry => { entry with state := .connecting, touchedAtMs := now }
  else s

def transportOf (info : Option Text) : Option RtspTransport :=
  let transport := JsString.toLowerCase (JsString.trim (info.getD []))
  if transport = ['t', 'c', 'p'] then some .tcp
  else if transport = ['u', 'd', 'p'] then some .udp
  else none

def noteProgress (cfg : Settings) (now : ℚ) (s : Gateway) (cameraId profile : Text)
    (transport : Option Text) (frame : Bool) : Gateway :=
  if cfg.isEnabled then
    match s.ensureEntry cameraId (normalizeSourceProfile profile) now with
    | none => s
    | some (s, entry) =>
      let changed := s.change entry.key fun entry =>
        { entry with
          state := .online
          lastPacketAtMs := some now
          lastFrameAtMs := if frame then some now else entry.lastFrameAtMs
          transport := (transportOf transport).or entry.transport
          consecutiveFailures := 0
          attempt := 0
          lastBackoffMs := none
          nextAttemptAtMs := none
          circuitOpenUntilMs := none
          circuitCooldownMs := none
          degraded := false
          touchedAtMs := now }
      { changed with
        counters :=
          { s.counters with
            recoveries := s.counters.recoveries + if entry.degraded then 1 else 0 } }
  else s

/-- The origin after one more failure, and whether this one opened its circuit. -/
def failed (cfg : Settings) (now random : ℚ) (entry : SourceEntry) : SourceEntry × Bool :=
  let counted :=
    { entry with
      consecutiveFailures := entry.consecutiveFailures + 1
      attempt := entry.attempt + 1
      degraded := true
      touchedAtMs := now }
  if cfg.threshold ≤ counted.consecutiveFailures then
    let next := match entry.circuitCooldownMs with
      | none => cfg.circuitOpen
      | some cooldown => cooldown * 2
    let cooldown := min next cfg.circuitMaxOpen
    ({ counted with
        circuitCooldownMs := some cooldown
        circuitOpenUntilMs := some (now + cooldown)
        nextAttemptAtMs := some (now + cooldown)
        lastBackoffMs := some cooldown
        state := .circuitOpen }, true)
  else
    let delay := cfg.computeBackoffDelayMs counted.attempt random
    ({ counted with
        lastBackoffMs := some delay
        nextAttemptAtMs := some (now + delay)
        state := .backoff }, false)

def noteFailure (cfg : Settings) (now random : ℚ) (s : Gateway) (cameraId profile : Text) :
    Gateway :=
  if cfg.isEnabled then
    match s.ensureEntry cameraId (normalizeSourceProfile profile) now with
    | none => s
    | some (s, entry) =>
      let changed := s.change entry.key fun entry => (failed cfg now random entry).1
      { changed with
        counters :=
          { s.counters with
            failures := s.counters.failures + 1
            circuitOpens :=
              s.counters.circuitOpens + if (failed cfg now random entry).2 then 1 else 0 } }
  else s

/-- The deadlines decide, not the label of the state. -/
def canAttempt (cfg : Settings) (now : ℚ) (s : Gateway) (cameraId profile : Text) : Bool :=
  if cfg.isEnabled then
    match s.entryAt (key cameraId (normalizeSourceProfile profile)) with
    | none => true
    | some entry =>
      if entry.cooling now then false
      else match entry.nextAttemptAtMs with
        | some next => !decide (now < next)
        | none => true
  else true

/-- `ONLINE` and without a packet for longer than the limit. -/
def stalls (cfg : Settings) (now : ℚ) (entry : SourceEntry) : Bool :=
  match entry.lastPacketAtMs with
  | some last => entry.state = .online && cfg.stallTimeout < now - last
  | none => false

/-- What the sweep leaves of an origin. -/
def sweep (cfg : Settings) (now : ℚ) (entry : SourceEntry) : Option SourceEntry :=
  if stalls cfg now entry then some { entry with state := .stalled, degraded := true }
  else if entry.consumers.isEmpty && !entry.cooling now && cfg.idleTtl < now - entry.touchedAtMs then
    none
  else some entry

/-- The keys of the map are distinct, so each round of the loop touches its own origin only. -/
def tick (cfg : Settings) (now : ℚ) (s : Gateway) : Gateway :=
  if cfg.isEnabled then
    { s with
      entries := s.entries.filterMap (sweep cfg now)
      counters :=
        { s.counters with
          stalls := s.counters.stalls + s.entries.countP (stalls cfg now) } }
  else s

end Gateway

inductive Operation where
  | acquire (cameraId profile consumer : Text)
  | release (id : Text)
  | registerPublishedSource (cameraId profile : Text) (url : Option Text)
  | noteConnecting (cameraId profile : Text)
  | noteProgress (cameraId profile : Text) (transport : Option Text) (frame : Bool)
  | noteFailure (cameraId profile : Text)
  | tick

/-- A call of the service, with what its clock and its random source answered. -/
structure Call where
  now : ℚ
  random : ℚ
  operation : Operation

def step (cfg : Settings) (s : Gateway) (call : Call) : Gateway :=
  match call.operation with
  | .acquire cameraId profile consumer => (s.acquire cfg call.now cameraId profile consumer).1
  | .release id => s.release call.now id
  | .registerPublishedSource cameraId profile url =>
    s.registerPublishedSource cfg call.now cameraId profile url
  | .noteConnecting cameraId profile => s.noteConnecting cfg call.now cameraId profile
  | .noteProgress cameraId profile transport frame =>
    s.noteProgress cfg call.now cameraId profile transport frame
  | .noteFailure cameraId profile => s.noteFailure cfg call.now call.random cameraId profile
  | .tick => s.tick cfg call.now

/-- The settings are read anew at every call. -/
def after (s : Gateway) (calls : List (Settings × Call)) : Gateway :=
  calls.foldl (fun s call => step call.1 s call.2) s

end DracVms.SourceGateway
