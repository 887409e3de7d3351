import DracVms.CameraStream.SourceGatewaySafety

namespace DracVms.SourceGateway

open List KeyedList

open Json (Text)
open KeyedList (updateAt lookup)
open Gateway (canAttempt)

/-- The deadline of the circuit of an origin, while it is open. -/
def openUntil (s : Gateway) (k : Text) : Option ℚ :=
  (s.entryAt k).bind SourceEntry.circuitOpenUntilMs

/-- The origin that a call has to find or to create. -/
def ensures (cfg : Settings) (s : Gateway) (operation : Operation) :
    Option (Text × SourceProfile) :=
  match operation with
  | .acquire cameraId profile _ =>
    if (s.substituteFor cfg cameraId (normalizeSourceProfile profile)).isSome then none
    else some (cameraId, normalizeSourceProfile profile)
  | .release _ => none
  | .registerPublishedSource cameraId profile _ => some (cameraId, normalizeSourceProfile profile)
  | .noteConnecting cameraId profile => some (cameraId, normalizeSourceProfile profile)
  | .noteProgress cameraId profile _ _ => some (cameraId, normalizeSourceProfile profile)
  | .noteFailure cameraId profile => some (cameraId, normalizeSourceProfile profile)
  | .tick => none

/-- What a full registry drops for an origin that it does not hold. -/
def droppedFor (s : Gateway) (k : Text) : Option SourceEntry :=
  if (s.entryAt k).isNone && MAX_TRACKED_SOURCES ≤ s.entries.length then oldestIdle s.entries
  else none

def dropped (cfg : Settings) (s : Gateway) (operation : Operation) : Option SourceEntry :=
  if cfg.isEnabled then
    (ensures cfg s operation).bind fun origin => droppedFor s (key origin.1 origin.2)
  else none

/-- The deadline that one more failure of the origin would open its circuit until. -/
def reopens (cfg : Settings) (now : ℚ) (entry : SourceEntry) : Option ℚ :=
  if cfg.threshold ≤ entry.consecutiveFailures + 1 then
    let next := match entry.circuitCooldownMs with
      | none => cfg.circuitOpen
      | some cooldown => cooldown * 2
    some (now + min next cfg.circuitMaxOpen)
  else none

def failsAt (operation : Operation) (k : Text) : Bool :=
  match operation with
  | .noteFailure cameraId profile => key cameraId (normalizeSourceProfile profile) = k
  | _ => false

def progressesAt (operation : Operation) (k : Text) : Bool :=
  match operation with
  | .noteProgress cameraId profile _ _ => key cameraId (normalizeSourceProfile profile) = k
  | _ => false

/-- The call neither drops the origin nor opens its circuit again for a shorter time. -/
structure Spares (k : Text) (deadline : ℚ) (s : Gateway) (call : Settings × Call) : Prop where
  room : ∀ oldest, dropped call.1 s call.2.operation = some oldest → oldest.key ≠ k
  reopening : call.1.isEnabled = true → failsAt call.2.operation k = true →
    ∀ entry, s.entryAt k = some entry → ∀ until', reopens call.1 call.2.now entry = some until' →
      deadline ≤ until'

theorem change_entryAt (s : Gateway) (k k' : Text) (changed : SourceEntry → SourceEntry)
    (keeps : ∀ entry, (changed entry).key = entry.key) : (s.change k' changed).entryAt k =
      if k = k' then (s.entryAt k).map changed else s.entryAt k := by
  split
  · rename_i same
    rw [same]
    exact lookup_updateAt_self s.entries k' changed keeps
  · rename_i apart
    exact lookup_updateAt_other s.entries changed keeps apart

theorem change_openUntil (s : Gateway) (k k' : Text) (changed : SourceEntry → SourceEntry)
    (keeps : ∀ entry, (changed entry).key = entry.key ∧ (changed entry).circuitOpenUntilMs =
      entry.circuitOpenUntilMs) :
    openUntil (s.change k' changed) k = openUntil s k := by
  unfold openUntil
  rw [change_entryAt s k k' changed fun entry => (keeps entry).1]
  split
  · cases s.entryAt k with
    | none => rfl
    | some entry => exact (keeps entry).2
  · rfl

theorem ensureEntry_entryAt (s t : Gateway) (cameraId : Text) (profile : SourceProfile) (now : ℚ)
    (entry held : SourceEntry) (k : Text) (present : s.entryAt k = some held)
    (ensured : s.ensureEntry cameraId profile now = some (t, entry)) :
    (∃ oldest, droppedFor s (key cameraId profile) = some oldest ∧ oldest.key = k ∧
        t.entryAt k = none ∧ key cameraId profile ≠ k) ∨
      (∀ oldest, droppedFor s (key cameraId profile) = some oldest → oldest.key ≠ k) ∧
        t.entryAt k = some held := by
  unfold Gateway.ensureEntry at ensured
  unfold droppedFor
  cases known : s.entryAt (key cameraId profile) with
  | some existing =>
    rw [known] at ensured
    cases ensured
    right
    refine ⟨?_, present⟩
    intro oldest drops
    simp at drops
  | none =>
    rw [known] at ensured
    obtain ⟨left, room, same⟩ := Option.map_eq_some_iff.mp ensured
    cases same
    have apart : key cameraId profile ≠ k := by
      intro same
      rw [same, present] at known
      cases known
    have last : Gateway.entryAt
        { left with entries := left.entries ++ [freshEntry cameraId profile now] } k =
          left.entryAt k := by
      show List.find? _ (left.entries ++ [_]) = List.find? _ left.entries
      have other : (freshEntry cameraId profile now).key ≠ k := apart
      simp [other]
    rw [last]
    simp only [Option.isNone_none, Bool.true_and, decide_eq_true_eq]
    split at room
    · rename_i full
      obtain ⟨oldest, found, rfl⟩ := Option.map_eq_some_iff.mp room
      rw [if_pos full]
      by_cases same : oldest.key = k
      · left
        refine ⟨oldest, found, same, ?_, apart⟩
        rw [← same]
        exact lookup_filter_self s.entries oldest.key
      · right
        constructor
        · intro other chosen
          rw [found] at chosen
          cases chosen
          exact same
        · exact (lookup_filter_other s.entries fun h => same h.symm).trans present
    · rename_i free
      cases room
      right
      rw [if_neg free]
      exact ⟨fun _ drops => (nomatch drops), present⟩

variable (cfg : Settings)

theorem failed_reopens (now random : ℚ) (entry : SourceEntry) : match reopens cfg now entry with
    | none => (Gateway.failed cfg now random entry).1.circuitOpenUntilMs = entry.circuitOpenUntilMs
    | some until' =>
      (Gateway.failed cfg now random entry).1.circuitOpenUntilMs = some until' ∧
        (Gateway.failed cfg now random entry).1.nextAttemptAtMs = some until' := by
  unfold reopens Gateway.failed
  by_cases reached : cfg.threshold ≤ entry.consecutiveFailures + 1
  · rw [if_pos reached, if_pos reached]
    exact ⟨rfl, rfl⟩
  · rw [if_neg reached, if_neg reached]

variable (now : ℚ)

theorem sweep_cooling (entry : SourceEntry) (cooling : entry.cooling now = true) :
    ∃ kept, Gateway.sweep cfg now entry = some kept ∧ kept.key = entry.key ∧
      kept.circuitOpenUntilMs = entry.circuitOpenUntilMs := by
  unfold Gateway.sweep
  split
  · exact ⟨_, rfl, rfl, rfl⟩
  · split
    · rename_i dropped
      rw [cooling] at dropped
      simp at dropped
    · exact ⟨entry, rfl, rfl, rfl⟩

theorem tick_openUntil (s : Gateway) (k : Text) (held : SourceEntry)
    (distinct : (s.entries.map SourceEntry.key).Nodup) (present : s.entryAt k = some held)
    (cooling : held.cooling now = true) : openUntil (s.tick cfg now) k = openUntil s k := by
  obtain ⟨listed, named⟩ := entryAt_some present
  unfold Gateway.tick
  split
  · obtain ⟨kept, swept, same, circuit⟩ := sweep_cooling cfg now held cooling
    have stays : kept ∈ s.entries.filterMap (Gateway.sweep cfg now) :=
      mem_filterMap.mpr ⟨held, listed, swept⟩
    have found := lookup_eq_some (distinct.sublist (swept_keys cfg now s.entries)) stays
    rw [same, named] at found
    show Option.bind (lookup SourceEntry.key (s.entries.filterMap (Gateway.sweep cfg now)) k) _ =
      (s.entryAt k).bind _
    rw [found, present]
    exact circuit
  · rfl

theorem ensureEntry_none (s : Gateway) (cameraId : Text) (profile : SourceProfile) (now : ℚ)
    (full : s.ensureEntry cameraId profile now = none) :
    droppedFor s (key cameraId profile) = none := by
  unfold Gateway.ensureEntry at full
  unfold droppedFor
  cases known : s.entryAt (key cameraId profile) with
  | some existing => rfl
  | none =>
    rw [known] at full
    simp only [Option.isNone_none, Bool.true_and, decide_eq_true_eq]
    have room := Option.map_eq_none_iff.mp full
    split
    · rename_i limit
      rw [if_pos limit] at room
      exact Option.map_eq_none_iff.mp room
    · rfl

/-- What becomes of an open circuit when the registry drops `gone` at most. -/
def Outcome (s t : Gateway) (k : Text) (gone : Option SourceEntry) : Prop :=
  (∃ oldest, gone = some oldest ∧ oldest.key = k ∧ t.entryAt k = none) ∨
    (∀ oldest, gone = some oldest → oldest.key ≠ k) ∧ openUntil t k = openUntil s k

theorem Outcome.same {s t : Gateway} {k : Text} (same : openUntil t k = openUntil s k) :
    Outcome s t k none :=
  Or.inr ⟨fun _ drops => (nomatch drops), same⟩

theorem noted_outcome (s t result : Gateway) (cameraId : Text) (profile : SourceProfile) (now : ℚ)
    (entry held : SourceEntry) (changed : SourceEntry → SourceEntry) (k : Text)
    (present : s.entryAt k = some held)
    (ensured : s.ensureEntry cameraId profile now = some (t, entry))
    (keeps : ∀ entry, (changed entry).key = entry.key)
    (circuit : key cameraId profile = k → ∀ entry, (changed entry).circuitOpenUntilMs =
      entry.circuitOpenUntilMs)
    (same : result.entries = (t.change entry.key changed).entries) :
    Outcome s result k (droppedFor s (key cameraId profile)) := by
  have named := (ensureEntry_key s t cameraId profile now entry ensured).1
  have view : result.entryAt k = (t.change entry.key changed).entryAt k := by
    unfold Gateway.entryAt
    rw [same]
  have after' := change_entryAt t k entry.key changed keeps
  rcases ensureEntry_entryAt s t cameraId profile now entry held k present ensured with
    ⟨oldest, drops, gone, absent, apart⟩ | ⟨stays, still⟩
  · left
    refine ⟨oldest, drops, gone, ?_⟩
    rw [view, after', absent]
    split <;> rfl
  · right
    refine ⟨stays, ?_⟩
    unfold openUntil
    rw [view, after', still, present]
    split
    · rename_i here
      rw [named] at here
      exact circuit here.symm held
    · rfl

theorem openUntil_entries {s t : Gateway} (same : t.entries = s.entries) (k : Text) :
    openUntil t k = openUntil s k := by
  unfold openUntil Gateway.entryAt
  rw [same]

theorem ensuring_outcome (s result : Gateway) (cameraId : Text) (profile : SourceProfile) (now : ℚ)
    (held : SourceEntry) (changed : SourceEntry → SourceEntry) (k : Text)
    (present : s.entryAt k = some held) (keeps : ∀ entry, (changed entry).key = entry.key)
    (circuit : cfg.isEnabled = true → key cameraId profile = k → ∀ entry,
      (changed entry).circuitOpenUntilMs = entry.circuitOpenUntilMs)
    (off : ¬cfg.isEnabled = true → result.entries = s.entries)
    (full : cfg.isEnabled = true → s.ensureEntry cameraId profile now = none → result.entries =
      s.entries)
    (made : cfg.isEnabled = true → ∀ t entry, s.ensureEntry cameraId profile now = some (t, entry) →
      result.entries = (t.change entry.key changed).entries) :
    Outcome s result k (if cfg.isEnabled then droppedFor s (key cameraId profile) else none) := by
  by_cases enabled : cfg.isEnabled = true
  · rw [if_pos enabled]
    cases ensured : s.ensureEntry cameraId profile now with
    | none =>
      rw [ensureEntry_none s cameraId profile now ensured]
      exact .same (openUntil_entries (full enabled ensured) k)
    | some outcome =>
      obtain ⟨t, entry⟩ := outcome
      exact noted_outcome s t result cameraId profile now entry held changed k present ensured
        keeps (circuit enabled) (made enabled t entry ensured)
  · rw [if_neg enabled]
    exact .same (openUntil_entries (off enabled) k)

theorem dropped_none {cfg : Settings} {s : Gateway} {operation : Operation}
    (none' : ensures cfg s operation = none) : dropped cfg s operation = none := by
  unfold dropped
  rw [none']
  split <;> rfl

theorem dropped_some {cfg : Settings} {s : Gateway} {operation : Operation} {cameraId : Text}
    {profile : SourceProfile} (origin : ensures cfg s operation = some (cameraId, profile)) :
    dropped cfg s operation =
      if cfg.isEnabled then droppedFor s (key cameraId profile) else none := by
  unfold dropped
  rw [origin]
  rfl

theorem ensureEntry_numbered (s : Gateway) (n : ℕ) (cameraId : Text) (profile : SourceProfile)
    (now : ℚ) : ({ s with leaseSeq := n } : Gateway).ensureEntry cameraId profile now =
      (s.ensureEntry cameraId profile now).map
        fun made => ({ made.1 with leaseSeq := n }, made.2) := by
  have view : ({ s with leaseSeq := n } : Gateway).entryAt (key cameraId profile) =
      s.entryAt (key cameraId profile) := rfl
  have room : ({ s with leaseSeq := n } : Gateway).evictOneIdle =
      s.evictOneIdle.map fun left => { left with leaseSeq := n } := by
    unfold Gateway.evictOneIdle
    rw [Option.map_map]
    rfl
  unfold Gateway.ensureEntry
  rw [view]
  cases s.entryAt (key cameraId profile) with
  | some existing => rfl
  | none =>
    dsimp only
    split
    · rw [room, Option.map_map, Option.map_map]
      rfl
    · rfl

theorem acquire_outcome (s : Gateway) (cameraId profile consumer : Text) (k : Text)
    (held : SourceEntry) (present : s.entryAt k = some held) :
    Outcome s (s.acquire cfg now cameraId profile consumer).1 k
      (dropped cfg s (.acquire cameraId profile consumer)) := by
  have numbered : ∀ n, ({ s with leaseSeq := n } : Gateway).substituteFor cfg cameraId
      (normalizeSourceProfile profile) =
        s.substituteFor cfg cameraId (normalizeSourceProfile profile) := fun _ => rfl
  cases chosen : s.substituteFor cfg cameraId (normalizeSourceProfile profile) with
  | some substitute =>
    have served : ensures cfg s (.acquire cameraId profile consumer) = none := by
      simp [ensures, chosen]
    rw [dropped_none served]
    apply Outcome.same
    unfold Gateway.acquire
    dsimp only
    rw [numbered, chosen]
    split
    · have joined := change_openUntil s k substitute.key
        (Gateway.join now (leaseId (s.leaseSeq + 1)) consumer) fun _ => ⟨rfl, rfl⟩
      exact (openUntil_entries rfl k).trans joined
    · exact openUntil_entries rfl k
  | none =>
    have opens : ensures cfg s (.acquire cameraId profile consumer) =
        some (cameraId, normalizeSourceProfile profile) := by
      simp [ensures, chosen]
    rw [dropped_some opens]
    refine ensuring_outcome cfg s _ cameraId (normalizeSourceProfile profile) now held
      (Gateway.join now (leaseId (s.leaseSeq + 1)) consumer) k present ?_ ?_ ?_ ?_ ?_
    · exact fun _ => rfl
    · exact fun _ _ _ => rfl
    · intro disabled
      simp only [Gateway.acquire, if_neg disabled]
    · intro enabled full
      simp only [Gateway.acquire, if_pos enabled, numbered, chosen, ensureEntry_numbered, full,
        Option.map_none]
    · intro enabled t entry ensured
      simp only [Gateway.acquire, if_pos enabled, numbered, chosen, ensureEntry_numbered, ensured,
        Option.map_some]
      rfl

theorem release_openUntil (s : Gateway) (id k : Text) :
    openUntil (s.release now id) k = openUntil s k := by
  unfold Gateway.release
  split
  · rfl
  · split
    · rfl
    · rename_i ref _
      split
      · exact openUntil_entries rfl k
      · have left := change_openUntil s k ref.key (Gateway.leave now id) fun _ => ⟨rfl, rfl⟩
        exact (openUntil_entries rfl k).trans left

/-- A call that is no report on the origin itself leaves its open circuit, or drops it. -/
theorem step_outcome (s : Gateway) (call : Call) (k : Text) (held : SourceEntry) (sound : Sound s)
    (present : s.entryAt k = some held) (cooling : held.cooling call.now = true)
    (quiet : progressesAt call.operation k = false)
    (other : cfg.isEnabled = true → failsAt call.operation k = false) :
    Outcome s (step cfg s call) k (dropped cfg s call.operation) := by
  unfold step
  cases operation : call.operation with
  | acquire cameraId profile consumer =>
    exact acquire_outcome cfg call.now s cameraId profile consumer k held present
  | release id =>
    rw [dropped_none rfl]
    exact .same (release_openUntil call.now s id k)
  | registerPublishedSource cameraId profile url =>
    refine ensuring_outcome cfg s _ cameraId (normalizeSourceProfile profile) call.now held
      (fun entry =>
        { entry with
          publishedUrl := url.filter fun text => !(JsString.trim text).isEmpty
          touchedAtMs := call.now }) k present ?_ ?_ ?_ ?_ ?_
    · exact fun _ => rfl
    · exact fun _ _ _ => rfl
    · intro disabled
      simp only [Gateway.registerPublishedSource, if_neg disabled]
    · intro enabled full
      simp only [Gateway.registerPublishedSource, if_pos enabled, full]
    · intro enabled t entry ensured
      simp only [Gateway.registerPublishedSource, if_pos enabled, ensured]
  | noteConnecting cameraId profile =>
    refine ensuring_outcome cfg s _ cameraId (normalizeSourceProfile profile) call.now held
      (fun entry => { entry with state := .connecting, touchedAtMs := call.now }) k
      present ?_ ?_ ?_ ?_ ?_
    · exact fun _ => rfl
    · exact fun _ _ _ => rfl
    · intro disabled
      simp only [Gateway.noteConnecting, if_neg disabled]
    · intro enabled full
      simp only [Gateway.noteConnecting, if_pos enabled, full]
    · intro enabled t entry ensured
      simp only [Gateway.noteConnecting, if_pos enabled, ensured]
  | noteProgress cameraId profile transport frame =>
    refine ensuring_outcome cfg s _ cameraId (normalizeSourceProfile profile) call.now held
      (fun entry =>
        { entry with
          state := .online
          lastPacketAtMs := some call.now
          lastFrameAtMs := if frame then some call.now else entry.lastFrameAtMs
          transport := (Gateway.transportOf transport).or entry.transport
          consecutiveFailures := 0
          attempt := 0
          lastBackoffMs := none
          nextAttemptAtMs := none
          circuitOpenUntilMs := none
          circuitCooldownMs := none
          degraded := false
          touchedAtMs := call.now }) k present ?_ ?_ ?_ ?_ ?_
    · exact fun _ => rfl
    · intro _ here
      rw [operation] at quiet
      simp [progressesAt, here] at quiet
    · intro disabled
      simp only [Gateway.noteProgress, if_neg disabled]
    · intro enabled full
      simp only [Gateway.noteProgress, if_pos enabled, full]
    · intro enabled t entry ensured
      simp only [Gateway.noteProgress, if_pos enabled, ensured]
  | noteFailure cameraId profile =>
    refine ensuring_outcome cfg s _ cameraId (normalizeSourceProfile profile) call.now held
      (fun entry => (Gateway.failed cfg call.now call.random entry).1) k
      present ?_ ?_ ?_ ?_ ?_
    · exact fun entry => (failed_keeps cfg call.now call.random entry).1
    · intro enabled here
      have elsewhere := other enabled
      rw [operation] at elsewhere
      simp [failsAt, here] at elsewhere
    · intro disabled
      simp only [Gateway.noteFailure, if_neg disabled]
    · intro enabled full
      simp only [Gateway.noteFailure, if_pos enabled, full]
    · intro enabled t entry ensured
      simp only [Gateway.noteFailure, if_pos enabled, ensured]
  | tick =>
    rw [dropped_none rfl]
    exact .same (tick_openUntil cfg call.now s k held sound.keys present cooling)

theorem canAttempt_cooling (now deadline : ℚ) (s : Gateway) (cameraId profile : Text) (until' : ℚ)
    (circuit : openUntil s (key cameraId (normalizeSourceProfile profile)) = some until')
    (later : deadline ≤ until') (early : now < deadline) (enabled : cfg.isEnabled = true) :
    canAttempt cfg now s cameraId profile = false := by
  obtain ⟨entry, present, same⟩ := Option.bind_eq_some_iff.mp circuit
  have cooling : entry.cooling now = true := by
    rw [SourceEntry.cooling, same]
    exact decide_eq_true (lt_of_lt_of_le early later)
  unfold canAttempt
  rw [if_pos enabled, present]
  exact if_pos cooling

theorem canAttempt_absent (s : Gateway) (cameraId profile : Text)
    (absent : s.entryAt (key cameraId (normalizeSourceProfile profile)) = none) :
    canAttempt cfg now s cameraId profile = true := by
  unfold canAttempt
  rw [absent]
  split <;> rfl

theorem canAttempt_due (s : Gateway) (cameraId profile : Text) (until' : ℚ) (entry : SourceEntry)
    (present : s.entryAt (key cameraId (normalizeSourceProfile profile)) = some entry)
    (circuit : entry.circuitOpenUntilMs = some until') (next : entry.nextAttemptAtMs = some until') :
    canAttempt cfg until' s cameraId profile = true := by
  have cooled : entry.cooling until' = false := by
    rw [SourceEntry.cooling, circuit]
    exact decide_eq_false (lt_irrefl until')
  unfold canAttempt
  rw [present]
  split
  · dsimp only
    rw [if_neg (by simp [cooled]), next]
    simp
  · rfl

/-- No attempt before the deadline. -/
def Barred (cameraId profile : Text) (deadline : ℚ) (s : Gateway) : Prop :=
  ∀ cfg now, cfg.isEnabled = true → now < deadline → canAttempt cfg now s cameraId profile = false

/-- The circuit is open until the deadline or later. -/
structure Held (k : Text) (deadline : ℚ) (s : Gateway) : Prop where
  sound : Sound s
  circuit : ∃ until', openUntil s k = some until' ∧ deadline ≤ until'

theorem standard_enabled : standard.isEnabled = true := by decide +kernel

section

variable (s : Gateway) (call : Call) (cameraId profile : Text) (deadline : ℚ)
  (held : Held (key cameraId (normalizeSourceProfile profile)) deadline s)

include held

theorem failure_spares (enabled : cfg.isEnabled = true)
    (fails : failsAt call.operation (key cameraId (normalizeSourceProfile profile)) = true) :
    (Barred cameraId profile deadline (step cfg s call) ↔
        Spares (key cameraId (normalizeSourceProfile profile)) deadline s (cfg, call)) ∧
      (Spares (key cameraId (normalizeSourceProfile profile)) deadline s (cfg, call) →
        Held (key cameraId (normalizeSourceProfile profile)) deadline (step cfg s call)) := by
  obtain ⟨sound, before, circuit, later⟩ := held
  obtain ⟨entry, present, same⟩ := Option.bind_eq_some_iff.mp circuit
  generalize origin : key cameraId (normalizeSourceProfile profile) = k at *
  obtain ⟨camera, name, operation, here⟩ : ∃ camera name,
      call.operation = .noteFailure camera name ∧ key camera (normalizeSourceProfile name) = k := by
    cases operation : call.operation with
    | noteFailure camera name =>
      rw [operation] at fails
      exact ⟨camera, name, rfl, of_decide_eq_true fails⟩
    | _ =>
      rw [operation] at fails
      cases fails
  have ensured : s.ensureEntry camera (normalizeSourceProfile name) call.now = some (s, entry) := by
    unfold Gateway.ensureEntry
    rw [here, present]
  have failed' : (step cfg s call).entryAt k =
      some (Gateway.failed cfg call.now call.random entry).1 := by
    have changed := change_entryAt s k entry.key
      (fun entry => (Gateway.failed cfg call.now call.random entry).1)
      fun entry => (failed_keeps cfg call.now call.random entry).1
    rw [if_pos (entryAt_some present).2.symm, present] at changed
    unfold step
    rw [operation]
    simp only [Gateway.noteFailure, if_pos enabled, ensured]
    exact changed
  have room : ∀ oldest, dropped cfg s call.operation = some oldest → oldest.key ≠ k := by
    intro oldest drops
    have none' : dropped cfg s call.operation = none := by
      rw [operation, dropped_some rfl, if_pos enabled, droppedFor, here, present]
      rfl
    rw [none'] at drops
    cases drops
  have kept : Sound (step cfg s call) := (step_sound cfg s call sound).1
  have deadlines := failed_reopens cfg call.now call.random entry
  cases reopening : reopens cfg call.now entry with
  | none =>
    rw [reopening] at deadlines
    have circuit' : openUntil (step cfg s call) k = some before := by
      unfold openUntil
      rw [failed']
      exact deadlines.trans same
    have spares : Spares k deadline s (cfg, call) := by
      refine ⟨room, ?_⟩
      intro _ _ found known until' opens
      rw [present] at known
      cases known
      rw [reopening] at opens
      cases opens
    refine ⟨iff_of_true ?_ spares, fun _ => ⟨kept, before, circuit', later⟩⟩
    intro cfg' now on early
    rw [← origin] at circuit'
    exact canAttempt_cooling cfg' now deadline _ cameraId profile before circuit' later early on
  | some until' =>
    rw [reopening] at deadlines
    have circuit' : openUntil (step cfg s call) k = some until' := by
      unfold openUntil
      rw [failed']
      exact deadlines.1
    have exact' : Spares k deadline s (cfg, call) ↔ deadline ≤ until' := by
      refine ⟨fun spares => spares.reopening enabled fails entry present until' reopening, ?_⟩
      intro longer
      refine ⟨room, ?_⟩
      intro _ _ found known instant opens
      rw [present] at known
      cases known
      rw [reopening] at opens
      cases opens
      exact longer
    rw [exact']
    refine ⟨⟨?_, ?_⟩, fun longer => ⟨kept, until', circuit', longer⟩⟩
    · intro barred
      by_contra shorter
      have answer := barred standard until' standard_enabled (not_le.mp shorter)
      rw [← origin] at failed'
      have due := canAttempt_due standard (step cfg s call) cameraId profile until' _ failed'
        deadlines.1 deadlines.2
      rw [due] at answer
      cases answer
    · intro longer cfg' now on early
      rw [← origin] at circuit'
      exact canAttempt_cooling cfg' now deadline _ cameraId profile until' circuit' longer early on

theorem step_spares (early : call.now < deadline)
    (quiet : progressesAt call.operation (key cameraId (normalizeSourceProfile profile)) = false) :
    (Barred cameraId profile deadline (step cfg s call) ↔
        Spares (key cameraId (normalizeSourceProfile profile)) deadline s (cfg, call)) ∧
      (Spares (key cameraId (normalizeSourceProfile profile)) deadline s (cfg, call) →
        Held (key cameraId (normalizeSourceProfile profile)) deadline (step cfg s call)) := by
  obtain ⟨sound, until', circuit, later⟩ := held
  obtain ⟨entry, present, same⟩ := Option.bind_eq_some_iff.mp circuit
  by_cases fails : cfg.isEnabled = true ∧
      failsAt call.operation (key cameraId (normalizeSourceProfile profile)) = true
  · exact failure_spares cfg s call cameraId profile deadline ⟨sound, until', circuit, later⟩
      fails.1 fails.2
  · have other : cfg.isEnabled = true →
        failsAt call.operation (key cameraId (normalizeSourceProfile profile)) = false := by
      intro enabled
      exact Bool.eq_false_iff.mpr fun failing => fails ⟨enabled, failing⟩
    have cooling : entry.cooling call.now = true := by
      rw [SourceEntry.cooling, same]
      exact decide_eq_true (lt_of_lt_of_le early later)
    rcases step_outcome cfg s call _ entry sound present cooling quiet other with
      ⟨oldest, drops, gone, absent⟩ | ⟨stays, kept⟩
    · have spared :
          ¬Spares (key cameraId (normalizeSourceProfile profile)) deadline s (cfg, call) :=
        fun spares => spares.room oldest drops gone
      refine ⟨⟨?_, fun spares => absurd spares spared⟩, fun spares => absurd spares spared⟩
      intro barred
      have answer := barred standard call.now standard_enabled early
      rw [canAttempt_absent standard call.now _ cameraId profile absent] at answer
      cases answer
    · rw [circuit] at kept
      have spares :
          Spares (key cameraId (normalizeSourceProfile profile)) deadline s (cfg, call) := by
        refine ⟨stays, ?_⟩
        intro enabled failing
        exact absurd ⟨enabled, failing⟩ fails
      have after' :
          Held (key cameraId (normalizeSourceProfile profile)) deadline (step cfg s call) :=
        ⟨(step_sound cfg s call sound).1, until', kept, later⟩
      refine ⟨iff_of_true ?_ spares, fun _ => after'⟩
      intro cfg' now enabled before
      exact canAttempt_cooling cfg' now deadline _ cameraId profile until' kept later before enabled

end

/-- A call made before the deadline that reports no progress of the origin. -/
def Between (k : Text) (deadline : ℚ) (call : Settings × Call) : Prop :=
  call.2.now < deadline ∧ progressesAt call.2.operation k = false

/-- Before the deadline of an open circuit no attempt is allowed while no progress is reported
exactly when no call on the way drops the origin or opens its circuit again for a shorter time. -/
theorem circuit_persists_iff (before calls : List (Settings × Call)) (cameraId profile : Text)
    (deadline : ℚ)
    (circuit : openUntil (after opened before) (key cameraId (normalizeSourceProfile profile)) =
      some deadline)
    (between : ∀ call ∈ calls, Between (key cameraId (normalizeSourceProfile profile)) deadline call) :
    (∀ n cfg now, cfg.isEnabled = true → now < deadline →
        canAttempt cfg now (after (after opened before) (calls.take n)) cameraId profile = false) ↔
      Runs.Allowed (fun s (call : Settings × Call) => some (step call.1 s call.2))
        (Spares (key cameraId (normalizeSourceProfile profile)) deadline) (after opened before)
        calls := by
  have holds : ∀ s, Held (key cameraId (normalizeSourceProfile profile)) deadline s →
      Barred cameraId profile deadline s := by
    intro s held cfg now enabled early
    obtain ⟨-, until', circuit, later⟩ := held
    exact canAttempt_cooling cfg now deadline s cameraId profile until' circuit later early enabled
  have starts :
      Held (key cameraId (normalizeSourceProfile profile)) deadline (after opened before) :=
    ⟨after_sound opened before opened_sound, deadline, circuit, le_refl deadline⟩
  have folds : ∀ rest, Runs.run (fun s (call : Settings × Call) => some (step call.1 s call.2))
      (after opened before) rest = some (after (after opened before) rest) :=
    fun rest => Runs.run_total (fun s (call : Settings × Call) => step call.1 s call.2) _ rest
  rw [← Runs.prefixes_iff_kept _ holds _ _ calls ?_ starts (folds calls)]
  · constructor
    · intro always n u arrived
      rw [folds] at arrived
      cases arrived
      exact always n
    · intro always n
      exact always n _ (folds _)
  · intro s call listed t held taken
    cases taken
    obtain ⟨early, quiet⟩ := between call listed
    exact step_spares call.1 s call.2 cameraId profile deadline held early quiet

/-- Five failures in a row open the circuit for a minute. -/
def fiveFailures : List (Settings × Call) :=
  List.replicate 5 (standard, ⟨0, 0, .noteFailure ['y'] ['m', 'a', 'i', 'n']⟩)

theorem circuit_persists_connecting :
    openUntil (after opened fiveFailures) (key ['y'] .main) = some 60000 ∧
      ∀ n cfg now, cfg.isEnabled = true → now < 60000 →
        canAttempt cfg now (after (after opened fiveFailures)
          ([(standard, ⟨1, 0, .noteConnecting ['z'] ['m', 'a', 'i', 'n']⟩)].take n))
          ['y'] ['m', 'a', 'i', 'n'] = false := by
  refine ⟨by decide +kernel, ?_⟩
  refine (circuit_persists_iff fiveFailures _ ['y'] ['m', 'a', 'i', 'n'] 60000 ?_ ?_).mpr ?_
  · decide +kernel
  · exact forall_mem_singleton.mpr ⟨by norm_num, rfl⟩
  · refine ⟨⟨?_, ?_⟩, fun _ _ => trivial⟩
    · intro oldest drops
      have none' : dropped standard (after opened fiveFailures)
          (.noteConnecting ['z'] ['m', 'a', 'i', 'n']) = none := by decide +kernel
      cases drops
    · intro _ fails
      cases fails

def cameraName (i : ℕ) : Text := List.replicate (i + 1) 'x'

/-- Once each, the first cameras are registered. -/
def registrations (n : ℕ) : List (Settings × Call) :=
  (List.range n).map fun i =>
    (standard, ⟨1, 0, .registerPublishedSource (cameraName i) ['m', 'a', 'i', 'n'] none⟩)

/-- The registry holds an origin touched at the start and `n` idle ones registered later. -/
structure Filled (origin : SourceEntry) (n : ℕ) (s : Gateway) : Prop where
  sound : Sound s
  entries : ∃ rest, s.entries = origin :: rest ∧ rest.length = n ∧
    ∀ entry ∈ rest, entry.touchedAtMs = 1 ∧ ∃ i < n, entry.key = key (cameraName i) .main

theorem cameraName_injective (i j : ℕ) (same : cameraName i = cameraName j) : i = j := by
  have lengths := congrArg List.length same
  unfold cameraName at lengths
  rw [length_replicate, length_replicate] at lengths
  omega

variable (origin : SourceEntry)

theorem register_filled (n : ℕ) (s : Gateway) (filled : Filled origin n s)
    (room : n + 1 < MAX_TRACKED_SOURCES) (apart : ∀ i, origin.key ≠ key (cameraName i) .main) :
    Filled origin (n + 1) (step standard s
      ⟨1, 0, .registerPublishedSource (cameraName n) ['m', 'a', 'i', 'n'] none⟩) := by
  obtain ⟨sound, rest, whole, count, others⟩ := filled
  refine ⟨(step_sound standard s _ sound).1, ?_⟩
  have main : normalizeSourceProfile ['m', 'a', 'i', 'n'] = .main := by decide
  have fresh : ∀ entry ∈ s.entries, entry.key ≠ key (cameraName n) .main := by
    intro entry listed same
    rw [whole] at listed
    rcases mem_cons.mp listed with rfl | later
    · exact apart n same
    · obtain ⟨-, i, below, named⟩ := others entry later
      have names := (key_injective _ _ _ _ (named.symm.trans same)).1
      have numbers := cameraName_injective i n names
      omega
  have absent : s.entryAt (key (cameraName n) .main) = none := by
    apply List.find?_eq_none.mpr
    intro entry listed
    simp [fresh entry listed]
  have free : ¬MAX_TRACKED_SOURCES ≤ s.entries.length := by
    rw [whole, length_cons, count]
    omega
  have ensured : s.ensureEntry (cameraName n) .main 1 =
      some ({ s with entries := s.entries ++ [freshEntry (cameraName n) .main 1] },
        freshEntry (cameraName n) .main 1) := by
    unfold Gateway.ensureEntry
    rw [absent]
    rw [if_neg free]
    rfl
  unfold step
  simp only [Gateway.registerPublishedSource, main, if_pos standard_enabled, ensured]
  refine ⟨rest ++ [freshEntry (cameraName n) .main 1], ?_, ?_, ?_⟩
  · show updateAt SourceEntry.key (s.entries ++ [_]) _ _ = _
    have kept := updateAt_absent
      (fun entry : SourceEntry => { entry with publishedUrl := none, touchedAtMs := 1 }) fresh
    unfold updateAt at kept ⊢
    rw [map_append]
    refine (congrArg (· ++ _) kept).trans ?_
    rw [whole, map_singleton, if_pos rfl]
    rfl
  · rw [length_append, length_singleton, count]
  · intro entry listed
    rcases mem_append.mp listed with earlier | last
    · obtain ⟨touched, i, below, named⟩ := others entry earlier
      exact ⟨touched, i, by omega, named⟩
    · rw [mem_singleton.mp last]
      exact ⟨rfl, n, by omega, rfl⟩

theorem registrations_succ (s : Gateway) (n : ℕ) :
    after s (registrations (n + 1)) = step standard (after s (registrations n))
      ⟨1, 0, .registerPublishedSource (cameraName n) ['m', 'a', 'i', 'n'] none⟩ := by
  unfold registrations after
  rw [range_succ, map_append, foldl_append]
  rfl

theorem registrations_filled (n : ℕ) (s : Gateway) (filled : Filled origin 0 s)
    (room : n < MAX_TRACKED_SOURCES) (apart : ∀ i, origin.key ≠ key (cameraName i) .main) :
    Filled origin n (after s (registrations n)) := by
  induction n with
  | zero => exact filled
  | succ n ih =>
    rw [registrations_succ]
    exact register_filled origin n _ (ih (by omega)) room apart

theorem oldestIdle_first (rest : List SourceEntry) (idle : origin.consumers = [])
    (later : ∀ entry ∈ rest, origin.touchedAtMs < entry.touchedAtMs) :
    oldestIdle (origin :: rest) = some origin := by
  unfold oldestIdle
  rw [foldl_cons, idle]
  rw [if_neg (by simp)]
  induction rest with
  | nil => rfl
  | cons entry rest ih =>
    have older := later entry mem_cons_self
    rw [foldl_cons]
    have stays : ¬entry.touchedAtMs < origin.touchedAtMs := not_lt.mpr older.le
    simp only [stays, if_false, ite_self]
    exact ih fun entry listed => later entry (mem_cons_of_mem _ listed)

/-- The origin of the camera that failed five times. -/
def tripped : SourceEntry :=
  { freshEntry ['y'] .main 0 with
    state := .circuitOpen, consecutiveFailures := 5, attempt := 5, lastBackoffMs := some 60000
    nextAttemptAtMs := some 60000, circuitOpenUntilMs := some 60000
    circuitCooldownMs := some 60000, degraded := true }

theorem fiveFailures_tripped : (after opened fiveFailures).entries = [tripped] := by
  decide +kernel

theorem register_drops (n : ℕ) (s : Gateway) (filled : Filled origin n s)
    (full : MAX_TRACKED_SOURCES ≤ n + 1) (apart : ∀ i, origin.key ≠ key (cameraName i) .main)
    (idle : origin.consumers = []) (older : origin.touchedAtMs < 1) :
    dropped standard s (.registerPublishedSource (cameraName n) ['m', 'a', 'i', 'n'] none) =
      some origin := by
  obtain ⟨-, rest, whole, count, others⟩ := filled
  have main : normalizeSourceProfile ['m', 'a', 'i', 'n'] = .main := by decide
  have unknown : s.entryAt (key (cameraName n) .main) = none := by
    apply List.find?_eq_none.mpr
    intro entry listed same
    rw [whole] at listed
    rw [decide_eq_true_eq] at same
    rcases mem_cons.mp listed with rfl | later
    · exact apart n same
    · obtain ⟨-, i, below, named⟩ := others entry later
      have numbers := cameraName_injective i n (key_injective _ _ _ _ (named.symm.trans same)).1
      omega
  have oldest : oldestIdle s.entries = some origin := by
    rw [whole]
    apply oldestIdle_first origin rest idle
    intro entry listed
    rw [(others entry listed).1]
    exact older
  have limit : MAX_TRACKED_SOURCES ≤ s.entries.length := by
    rw [whole, length_cons, count]
    exact full
  rw [dropped_some rfl, if_pos standard_enabled, main, droppedFor, unknown, oldest]
  simp [limit]

theorem tripped_apart (i : ℕ) : tripped.key ≠ key (cameraName i) .main := by
  intro same
  have names := (key_injective _ _ _ _ same).1
  cases i with
  | zero | succ i => cases names

/-- Two thousand registrations of other cameras within the minute end the circuit. -/
theorem registrations_evict : openUntil (after opened fiveFailures) (key ['y'] .main) = some 60000 ∧
      (∀ call ∈ registrations 2000, Between (key ['y'] .main) 60000 call) ∧
      canAttempt standard 2 (after (after opened fiveFailures) (registrations 2000)) ['y']
        ['m', 'a', 'i', 'n'] = true := by
  have circuit : openUntil (after opened fiveFailures) (key ['y'] .main) = some 60000 := by
    unfold openUntil Gateway.entryAt
    rw [fiveFailures_tripped]
    rfl
  refine ⟨circuit, ?_, ?_⟩
  · intro call listed
    obtain ⟨i, -, rfl⟩ := mem_map.mp listed
    exact ⟨by norm_num, rfl⟩
  · have start : Filled tripped 0 (after opened fiveFailures) := by
      refine ⟨after_sound opened fiveFailures opened_sound, [], fiveFailures_tripped, rfl, ?_⟩
      intro entry listed
      exact absurd listed not_mem_nil
    have filled := registrations_filled tripped 1999 _ start (by decide) tripped_apart
    have drops := register_drops tripped 1999 _ filled (by decide) tripped_apart rfl
      (by norm_num [tripped, freshEntry])
    rw [registrations_succ _ 1999]
    generalize after (after opened fiveFailures) (registrations 1999) = s at filled drops
    have present : s.entryAt (key ['y'] .main) = some tripped := by
      obtain ⟨-, rest, whole, -⟩ := filled
      unfold Gateway.entryAt
      rw [whole]
      rfl
    apply canAttempt_absent
    rcases step_outcome standard s
      ⟨1, 0, .registerPublishedSource (cameraName 1999) ['m', 'a', 'i', 'n'] none⟩ _ tripped
      filled.sound present (by decide +kernel) rfl (fun _ => rfl) with
      ⟨-, -, -, absent⟩ | ⟨stays, -⟩
    · exact absent
    · exact absurd rfl (stays tripped drops)

end DracVms.SourceGateway
