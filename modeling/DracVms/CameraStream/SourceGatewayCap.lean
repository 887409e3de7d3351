import DracVms.CameraStream.SourceGatewaySafety

namespace DracVms.SourceGateway

open List

open Json (Text)
open KeyedList (updateAt)

/-- What `externalConnections` counts. -/
def connects (cameraId : Text) (entry : SourceEntry) : Bool :=
  entry.cameraId = cameraId && entry.isActive

/-- The origins that stay registered when this one is announced: a full registry drops one for it. -/
def staying (s : Gateway) (k : Text) : Option (List SourceEntry) :=
  if (s.entryAt k).isSome || s.entries.length < MAX_TRACKED_SOURCES then some s.entries
  else s.evictOneIdle.map Gateway.entries

/-- The origin whose connection the call reports as opening or open. -/
def announced (operation : Operation) : Option (Text × SourceProfile) :=
  match operation with
  | .noteConnecting cameraId profile => some (cameraId, normalizeSourceProfile profile)
  | .noteProgress cameraId profile _ _ => some (cameraId, normalizeSourceProfile profile)
  | _ => none

/-- Beside the announced origin the camera has fewer active ones than the cap allows. -/
def hasRoom (cfg : Settings) (s : Gateway) (call : Call) : Bool :=
  match announced call.operation with
  | none => true
  | some (cameraId, profile) =>
    !cfg.isEnabled ||
      (staying s (key cameraId profile)).all fun left =>
        (othersIn left cameraId profile).length < cfg.maxExternalConnectionsPerCamera

def WithinCap (cfg : Settings) (s : Gateway) : Prop :=
  ∀ cameraId, s.externalConnections cameraId ≤ cfg.maxExternalConnectionsPerCamera

theorem externalConnections_count (s : Gateway) (cameraId : Text) :
    s.externalConnections cameraId = s.entries.countP (connects cameraId) := by
  rw [countP_eq_length_filter]
  rfl

theorem change_quiet (s : Gateway) (k : Text) (changed : SourceEntry → SourceEntry)
    (camera : ∀ entry, (changed entry).cameraId = entry.cameraId)
    (quiet : ∀ entry ∈ s.entries, entry.key = k → (changed entry).isActive = true →
      entry.isActive = true)
    (cameraId : Text) :
    (s.change k changed).externalConnections cameraId ≤ s.externalConnections cameraId := by
  rw [externalConnections_count, externalConnections_count]
  show (updateAt SourceEntry.key s.entries k changed).countP _ ≤ _
  rw [updateAt, countP_map]
  apply countP_mono_left
  intro entry present counted
  rw [Function.comp_apply] at counted
  split at counted
  · rename_i same
    simp only [connects, Bool.and_eq_true, decide_eq_true_eq, camera] at counted ⊢
    exact ⟨counted.1, quiet entry present same counted.2⟩
  · exact counted

section

variable (s : Gateway) (entry : SourceEntry) (changed : SourceEntry → SourceEntry)
  (distinct : (s.entries.map SourceEntry.key).Nodup) (member : entry ∈ s.entries)
  (camera : (changed entry).cameraId = entry.cameraId)

include distinct member camera

theorem change_activates (active : (changed entry).isActive = true) :
    (s.change entry.key changed).externalConnections entry.cameraId =
      (othersIn s.entries entry.cameraId entry.profile).length + 1 := by
  obtain ⟨earlier, later, whole, updated⟩ := KeyedList.updateAt_split distinct member changed
  have apart : ∀ other ∈ earlier ++ later, connects entry.cameraId other = true ↔
      (decide (other.profile ≠ entry.profile) && connects entry.cameraId other) = true := by
    intro other present
    rw [Bool.and_eq_true, decide_eq_true_eq]
    refine ⟨?_, fun both => both.2⟩
    intro counted
    refine ⟨?_, counted⟩
    intro profile
    simp only [connects, Bool.and_eq_true, decide_eq_true_eq] at counted
    rw [whole, map_append, map_cons] at distinct
    have names := perm_middle.nodup_iff.mp distinct
    apply (nodup_cons.mp names).1
    rw [← map_append]
    refine mem_map.mpr ⟨other, present, ?_⟩
    rw [SourceEntry.key, SourceEntry.key, counted.1, profile]
  rw [externalConnections_count]
  show (updateAt SourceEntry.key s.entries entry.key changed).countP _ = _
  rw [updated, othersIn, activeIn, ← countP_eq_length_filter, countP_filter, whole]
  have first := countP_congr fun other present =>
    apart other (mem_append_left later present)
  have last := countP_congr fun other present =>
    apart other (mem_append_right earlier present)
  have counts : connects entry.cameraId (changed entry) = true := by
    simp [connects, camera, active]
  rw [countP_append, countP_append, countP_cons, countP_cons, first, last, counts]
  simp [connects]
  omega

theorem change_elsewhere (cameraId : Text) (other : entry.cameraId ≠ cameraId) :
    (s.change entry.key changed).externalConnections cameraId = s.externalConnections cameraId := by
  obtain ⟨earlier, later, whole, updated⟩ := KeyedList.updateAt_split distinct member changed
  rw [externalConnections_count, externalConnections_count]
  show (updateAt SourceEntry.key s.entries entry.key changed).countP _ = _
  rw [updated, whole]
  simp [connects, camera, other]

end

/-- Ensuring an origin leaves active what was, up to the origin that makes room for it. -/
theorem ensureEntry_staying (s : Gateway) (cameraId : Text) (profile : SourceProfile) (now : ℚ) :
    match s.ensureEntry cameraId profile now with
    | none => staying s (key cameraId profile) = none
    | some (t, _) => ∃ left, staying s (key cameraId profile) = some left ∧
        left.Sublist s.entries ∧ ∀ camera, activeIn t.entries camera = activeIn left camera := by
  unfold Gateway.ensureEntry staying
  cases known : s.entryAt (key cameraId profile) with
  | some existing => exact ⟨s.entries, by simp, List.Sublist.refl _, fun _ => rfl⟩
  | none =>
    have added : ∀ (left : Gateway) (camera : Text),
        activeIn (left.entries ++ [freshEntry cameraId profile now]) camera =
          activeIn left.entries camera := by
      intro left camera
      simp [activeIn, freshEntry, SourceEntry.isActive]
    by_cases room : s.entries.length < MAX_TRACKED_SOURCES
    · have free : ¬MAX_TRACKED_SOURCES ≤ s.entries.length := by omega
      simp only [free, room, if_false, Option.map_some]
      exact ⟨s.entries, by simp, List.Sublist.refl _, added s⟩
    · have full : MAX_TRACKED_SOURCES ≤ s.entries.length := by omega
      simp only [full, room, if_true]
      cases evicted : s.evictOneIdle with
      | none => simp
      | some left =>
        refine ⟨left.entries, by simp, ?_, added left⟩
        obtain ⟨oldest, -, rfl⟩ := Option.map_eq_some_iff.mp evicted
        exact filter_sublist

theorem othersIn_sublist (left entries : List SourceEntry) (cameraId : Text)
    (profile : SourceProfile) (fewer : left.Sublist entries) :
    (othersIn left cameraId profile).length ≤ (othersIn entries cameraId profile).length :=
  ((fewer.filter _).filter _).length_le

theorem activeIn_sublist (left entries : List SourceEntry) (cameraId : Text)
    (fewer : left.Sublist entries) :
    (activeIn left cameraId).length ≤ (activeIn entries cameraId).length :=
  (fewer.filter _).length_le

variable (cfg : Settings)

theorem announce_cap (s : Gateway) (cameraId : Text) (profile : SourceProfile) (now : ℚ)
    (t : Gateway) (entry : SourceEntry) (changed : SourceEntry → SourceEntry) (counters : Counters)
    (sound : Sound s) (holds : WithinCap cfg s)
    (ensured : s.ensureEntry cameraId profile now = some (t, entry))
    (camera : ∀ entry, (changed entry).cameraId = entry.cameraId)
    (active : ∀ entry, (changed entry).isActive = true) :
    WithinCap cfg { t.change entry.key changed with counters := counters } ↔
      (staying s (key cameraId profile)).all
        fun left =>
          (othersIn left cameraId profile).length < cfg.maxExternalConnectionsPerCamera := by
  have room := ensureEntry_staying s cameraId profile now
  rw [ensured] at room
  obtain ⟨left, stays, fewer, same⟩ := room
  obtain ⟨named, member⟩ := ensureEntry_key s t cameraId profile now entry ensured
  obtain ⟨rfl, rfl⟩ := key_injective _ _ _ _ named
  have distinct := (ensureEntry_untouched s t _ _ now entry sound.keys ensured).keys sound.keys
  have here := change_activates t entry changed distinct member (camera entry) (active entry)
  rw [othersIn, same, ← othersIn] at here
  rw [stays, Option.all_some, decide_eq_true_eq]
  constructor
  · intro within
    have atCamera : (t.change entry.key changed).externalConnections entry.cameraId ≤ _ :=
      within entry.cameraId
    omega
  · intro free cameraId
    show (t.change entry.key changed).externalConnections cameraId ≤ _
    by_cases concerned : entry.cameraId = cameraId
    · rw [← concerned]
      omega
    · rw [change_elsewhere t entry changed distinct member (camera entry) cameraId concerned]
      have before := holds cameraId
      have kept := activeIn_sublist left s.entries cameraId fewer
      show (activeIn t.entries cameraId).length ≤ _
      rw [same]
      exact le_trans kept before

/-- A call that activates no origin opens no connection. -/
theorem quiet_cap (s t : Gateway) (cameraId : Text) (profile : SourceProfile) (now : ℚ)
    (entry : SourceEntry) (changed : SourceEntry → SourceEntry) (counters : Counters)
    (holds : WithinCap cfg s) (ensured : s.ensureEntry cameraId profile now = some (t, entry))
    (camera : ∀ entry, (changed entry).cameraId = entry.cameraId)
    (quiet : ∀ entry, (changed entry).isActive = true → entry.isActive = true) :
    WithinCap cfg { t.change entry.key changed with counters := counters } := by
  have room := ensureEntry_staying s cameraId profile now
  rw [ensured] at room
  obtain ⟨left, -, fewer, same⟩ := room
  intro cameraId
  have first := change_quiet t entry.key changed camera (fun entry _ _ => quiet entry) cameraId
  have second : t.externalConnections cameraId ≤ s.externalConnections cameraId := by
    show (activeIn t.entries cameraId).length ≤ _
    rw [same]
    exact activeIn_sublist left s.entries cameraId fewer
  exact le_trans first (le_trans second (holds cameraId))

theorem failed_quiet (now random : ℚ) (entry : SourceEntry)
    (active : (Gateway.failed cfg now random entry).1.isActive = true) : entry.isActive = true := by
  unfold Gateway.failed at active
  dsimp only at active
  split at active
  all_goals
    simp [SourceEntry.isActive] at active
    simp [SourceEntry.isActive, active]

theorem failed_camera (now random : ℚ) (entry : SourceEntry) :
    (Gateway.failed cfg now random entry).1.cameraId = entry.cameraId := by
  unfold Gateway.failed
  dsimp only
  split
  all_goals rfl

variable (now : ℚ)

theorem leave_quiet (id : Text) (entry : SourceEntry)
    (active : (Gateway.leave now id entry).isActive = true) : entry.isActive = true := by
  unfold Gateway.leave at active
  simp only [SourceEntry.isActive, Bool.or_eq_true, decide_eq_true_eq] at active ⊢
  cases left : (entry.consumers.filter fun consumer => consumer.1 ≠ id).isEmpty with
  | true =>
    rw [left] at active
    simp at active
    split at active <;> simp at active
  | false =>
    have some' : entry.consumers.isEmpty = false := by
      cases consumers : entry.consumers with
      | nil => simp [consumers] at left
      | cons _ _ => rfl
    simp [some']

theorem tick_cap (s : Gateway) (holds : WithinCap cfg s) : WithinCap cfg (s.tick cfg now) := by
  intro cameraId
  refine le_trans ?_ (holds cameraId)
  unfold Gateway.tick
  split
  · rw [externalConnections_count, externalConnections_count]
    rw [countP_filterMap]
    apply countP_mono_left
    intro entry _ counted
    unfold Gateway.sweep at counted
    split at counted
    · simp [connects, SourceEntry.isActive] at counted
      simp [connects, SourceEntry.isActive, counted]
    · split at counted
      · cases counted
      · exact counted
  · exact le_refl _

theorem withinCap_of_entries (s t : Gateway) (same : t.entries = s.entries)
    (holds : WithinCap cfg s) : WithinCap cfg t := by
  intro cameraId
  show (activeIn t.entries cameraId).length ≤ _
  rw [same]
  exact holds cameraId

theorem setField_isEmpty (fields : List (Text × Text)) (entry : Text × Text) :
    (Json.setField fields entry).isEmpty = false := by
  unfold Json.setField
  split
  · rename_i listed
    obtain ⟨old, present, -⟩ := mem_map.mp listed
    cases fields with
    | nil => cases present
    | cons _ _ => rfl
  · simp

/-- Joining an origin that is active already opens no connection. -/
theorem attach_active (id consumer : Text) (s : Gateway) (entry : SourceEntry)
    (distinct : (s.entries.map SourceEntry.key).Nodup) (member : entry ∈ s.entries)
    (active : entry.isActive = true) (holds : WithinCap cfg s) :
    WithinCap cfg (s.attach now id consumer entry) := by
  intro cameraId
  refine le_trans ?_ (holds cameraId)
  refine change_quiet s entry.key _ ?_ ?_ cameraId
  · exact fun _ => rfl
  · intro other present named _
    rw [KeyedList.eq_of_key distinct present member named]
    exact active

theorem substituteFor_none (s : Gateway) (cameraId : Text) (profile : SourceProfile)
    (none' : s.substituteFor cfg cameraId profile = none) (opens : s.opens cameraId profile = true) :
    (othersIn s.entries cameraId profile).length < cfg.maxExternalConnectionsPerCamera := by
  by_contra full
  have atCap : cfg.maxExternalConnectionsPerCamera ≤ (othersIn s.entries cameraId profile).length := by
    omega
  have one : 1 ≤ cfg.maxExternalConnectionsPerCamera := le_max_left _ _
  rw [Gateway.substituteFor, if_pos opens, if_pos atCap] at none'
  unfold pickSubstitute at none'
  have picked := (Option.or_eq_none_iff.mp none').2
  split at picked
  · have empty := List.head?_eq_none_iff.mp picked
    rw [empty, length_nil] at atCap
    omega
  · rename_i online
    rw [List.head?_eq_none_iff.mp picked] at online
    exact online rfl

theorem acquire_cap (s : Gateway) (cameraId profile consumer : Text) (sound : Sound s)
    (holds : WithinCap cfg s) : WithinCap cfg (s.acquire cfg now cameraId profile consumer).1 := by
  have numbered : WithinCap cfg { s with leaseSeq := s.leaseSeq + 1 } := holds
  unfold Gateway.acquire
  dsimp only
  split
  · split
    · rename_i substitute chosen
      have listed := substituteFor_mem cfg _ cameraId _ substitute chosen
      have active := mem_filter.mp (mem_of_mem_filter listed)
      rw [Bool.and_eq_true] at active
      exact attach_active cfg now _ consumer _ substitute sound.keys active.1 active.2.2 holds
    · rename_i alone
      split
      · exact numbered
      · rename_i t entry ensured
        have member := (ensureEntry_key _ t cameraId _ now entry ensured).2
        by_cases opens : s.opens cameraId (normalizeSourceProfile profile) = true
        · have free := substituteFor_none cfg _ cameraId _ alone opens
          have room := ensureEntry_staying { s with leaseSeq := s.leaseSeq + 1 } cameraId
            (normalizeSourceProfile profile) now
          rw [ensured] at room
          obtain ⟨left, stays, fewer, -⟩ := room
          have active : ∀ other,
              (Gateway.join now (leaseId (s.leaseSeq + 1)) consumer other).isActive = true := by
            intro other
            simp [SourceEntry.isActive, Gateway.join, setField_isEmpty]
          have joined := announce_cap cfg _ cameraId _ now t entry
            (Gateway.join now (leaseId (s.leaseSeq + 1)) consumer) t.counters
            (numbered_sound s sound) numbered ensured (fun _ => rfl) active
          refine withinCap_of_entries cfg _ _ rfl (joined.mpr ?_)
          rw [stays, Option.all_some, decide_eq_true_eq]
          exact lt_of_le_of_lt (othersIn_sublist left _ cameraId _ fewer) free
        · rcases ensureEntry_cases _ t cameraId _ now entry ensured with
            ⟨known, rfl⟩ | ⟨absent, -, -⟩
          · apply attach_active cfg now _ consumer _ entry sound.keys member _ numbered
            have known' : s.entryAt (key cameraId (normalizeSourceProfile profile)) = some entry :=
              known
            rw [Gateway.opens, known'] at opens
            simp [SourceEntry.isActive, opens]
          · exfalso
            apply opens
            have absent' : s.entryAt (key cameraId (normalizeSourceProfile profile)) = none := absent
            rw [Gateway.opens, absent']
  · exact numbered

theorem release_cap (s : Gateway) (id : Text) (holds : WithinCap cfg s) :
    WithinCap cfg (s.release now id) := by
  unfold Gateway.release
  split
  · exact holds
  · split
    · exact holds
    · rename_i ref _
      split
      · exact holds
      · intro cameraId
        refine le_trans ?_ (holds cameraId)
        apply change_quiet s ref.key (Gateway.leave now id) (fun _ => rfl)
        exact fun entry _ _ => leave_quiet now id entry

theorem step_cap (s : Gateway) (call : Call) (sound : Sound s) (holds : WithinCap cfg s) :
    WithinCap cfg (step cfg s call) ↔ hasRoom cfg s call = true := by
  unfold step hasRoom
  cases operation : call.operation with
  | acquire cameraId profile consumer =>
    exact iff_of_true (acquire_cap cfg call.now s cameraId profile consumer sound holds) rfl
  | release id => exact iff_of_true (release_cap cfg call.now s id holds) rfl
  | registerPublishedSource cameraId profile url =>
    apply iff_of_true _ rfl
    unfold Gateway.registerPublishedSource
    dsimp only
    split
    · split
      · exact holds
      · rename_i t entry ensured
        apply quiet_cap cfg s t cameraId _ call.now entry _ t.counters holds ensured
        · exact fun _ => rfl
        · exact fun _ active => active
    · exact holds
  | noteConnecting cameraId profile =>
    unfold Gateway.noteConnecting
    dsimp only [announced]
    by_cases enabled : cfg.isEnabled = true
    · rw [if_pos enabled, enabled, Bool.not_true, Bool.false_or]
      split
      · rename_i full
        have room := ensureEntry_staying s cameraId (normalizeSourceProfile profile) call.now
        rw [full] at room
        rw [room]
        exact iff_of_true holds rfl
      · rename_i t entry ensured
        apply announce_cap cfg s cameraId _ call.now t entry _ t.counters sound holds ensured
        · exact fun _ => rfl
        · intro other
          simp [SourceEntry.isActive]
    · rw [if_neg enabled, Bool.eq_false_iff.mpr enabled]
      exact iff_of_true holds rfl
  | noteProgress cameraId profile transport frame =>
    unfold Gateway.noteProgress
    dsimp only [announced]
    by_cases enabled : cfg.isEnabled = true
    · rw [if_pos enabled, enabled, Bool.not_true, Bool.false_or]
      split
      · rename_i full
        have room := ensureEntry_staying s cameraId (normalizeSourceProfile profile) call.now
        rw [full] at room
        rw [room]
        exact iff_of_true holds rfl
      · rename_i t entry ensured
        apply announce_cap cfg s cameraId _ call.now t entry _ _ sound holds ensured
        · exact fun _ => rfl
        · intro other
          simp [SourceEntry.isActive]
    · rw [if_neg enabled, Bool.eq_false_iff.mpr enabled]
      exact iff_of_true holds rfl
  | noteFailure cameraId profile =>
    apply iff_of_true _ rfl
    unfold Gateway.noteFailure
    dsimp only
    split
    · split
      · exact holds
      · rename_i t entry ensured
        apply quiet_cap cfg s t cameraId _ call.now entry _ _ holds ensured
        · exact failed_camera cfg call.now call.random
        · exact failed_quiet cfg call.now call.random
    · exact holds
  | tick => exact iff_of_true (tick_cap cfg call.now s holds) rfl

/-- The cap of external connections holds all along a run exactly when every connection that is
announced finds room beside the active origins of its camera. -/
theorem cap_holds_iff (cfg : Settings) (calls : List Call) :
    (∀ n cameraId, ((calls.take n).foldl (step cfg) opened).externalConnections cameraId ≤
        cfg.maxExternalConnectionsPerCamera) ↔
      Runs.Allowed (fun s call => some (step cfg s call)) (fun s call => hasRoom cfg s call = true)
        opened calls := by
  have exact_step : ∀ s call t, Sound s → some (step cfg s call) = some t →
      Sound t ∧ (WithinCap cfg s → (WithinCap cfg t ↔ hasRoom cfg s call = true)) := by
    intro s call t sound taken
    cases taken
    exact ⟨(step_sound cfg s call sound).1, step_cap cfg s call sound⟩
  have within : WithinCap cfg opened := fun _ => Nat.zero_le _
  have along := Runs.prefixes_iff_allowed _ exact_step opened _ calls opened_sound within
    (Runs.run_total (step cfg) opened calls)
  rw [← along]
  constructor
  · intro always n t reached cameraId
    rw [Runs.run_total] at reached
    cases reached
    exact always n cameraId
  · intro always n
    exact always n _ (Runs.run_total (step cfg) opened (calls.take n))

def oneConnection : Settings := { standard with maxExternalPerCamera := some 1 }

/-- With a cap of one the sub stream comes up beside the main one that is being recorded. -/
def secondProfile : List Call :=
  [⟨0, 0, .acquire ['a'] ['m', 'a', 'i', 'n'] ['r']⟩, ⟨1, 0, .noteConnecting ['a'] ['s', 'u', 'b']⟩]

theorem secondProfile_over_cap : ¬∀ (calls : List Call) (cameraId : Text),
    (calls.foldl (step oneConnection) opened).externalConnections cameraId ≤
      oneConnection.maxExternalConnectionsPerCamera := by
  intro always
  have two : (secondProfile.foldl (step oneConnection) opened).externalConnections ['a'] = 2 := by
    decide +kernel
  have one : oneConnection.maxExternalConnectionsPerCamera = 1 := by decide +kernel
  have bounded := always secondProfile ['a']
  omega

end DracVms.SourceGateway
