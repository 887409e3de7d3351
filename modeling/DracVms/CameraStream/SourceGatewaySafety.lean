import DracVms.CameraStream.SourceGateway
import DracVms.Library.Runs

namespace DracVms.SourceGateway

open List KeyedList

open Json (Text setField field)
open KeyedList (updateAt lookup)

theorem key_injective (cameraId cameraId' : Text) (profile profile' : SourceProfile)
    (same : key cameraId profile = key cameraId' profile') :
    cameraId = cameraId' ∧ profile = profile' := by
  unfold key at same
  have mirrored := congrArg List.reverse same
  cases profile <;> cases profile' <;> simp [SourceProfile.text] at mirrored
  all_goals exact ⟨mirrored, rfl⟩

theorem leaseId_injective (m n : ℕ) (same : leaseId m = leaseId n) : m = n := by
  have digits := append_cancel_left same
  rw [← Nat.ofDigitChars_toDigits (b := 10) (n := m) (by omega) (by omega), digits,
    Nat.ofDigitChars_toDigits (by omega) (by omega)]

theorem leaseId_nonempty (n : ℕ) : (leaseId n).isEmpty = false := by
  simp [leaseId]

/-- The outstanding leases, each with the origin it names. -/
def outstanding (s : Gateway) : List (Text × Text) := s.leases.map fun lease => (lease.2.key, lease.1)

def recordedOn (entry : SourceEntry) : List (Text × Text) :=
  entry.consumers.map fun consumer => (entry.key, consumer.1)

/-- The consumers recorded on the origins, each with its origin. -/
def recorded (s : Gateway) : List (Text × Text) := s.entries.flatMap recordedOn

structure Sound (s : Gateway) : Prop where
  keys : (s.entries.map SourceEntry.key).Nodup
  ids : (s.leases.map Prod.fst).Nodup
  matched : (outstanding s).Perm (recorded s)
  issued : ∀ id ∈ s.leases.map Prod.fst, ∃ n ≤ s.leaseSeq, id = leaseId n

theorem opened_sound : Sound opened :=
  ⟨nodup_nil, nodup_nil, List.Perm.nil, fun _ present => absurd present not_mem_nil⟩

/-- What the calls that neither acquire nor release keep. -/
structure Untouched (s t : Gateway) : Prop where
  leases : t.leases = s.leases
  leaseSeq : t.leaseSeq = s.leaseSeq
  recorded : recorded t = recorded s
  keys : (s.entries.map SourceEntry.key).Nodup → (t.entries.map SourceEntry.key).Nodup

theorem Untouched.refl (s : Gateway) : Untouched s s := ⟨rfl, rfl, rfl, id⟩

theorem Untouched.trans {s t u : Gateway} (first : Untouched s t) (second : Untouched t u) :
    Untouched s u :=
  ⟨second.leases.trans first.leases, second.leaseSeq.trans first.leaseSeq,
    second.recorded.trans first.recorded, fun distinct => second.keys (first.keys distinct)⟩

theorem Untouched.sound {s t : Gateway} (same : Untouched s t) (sound : Sound s) : Sound t := by
  refine ⟨same.keys sound.keys, ?_, ?_, ?_⟩
  · rw [same.leases]
    exact sound.ids
  · rw [same.recorded, outstanding, same.leases]
    exact sound.matched
  · rw [same.leases, same.leaseSeq]
    exact sound.issued

theorem entryAt_some {s : Gateway} {k : Text} {entry : SourceEntry}
    (found : s.entryAt k = some entry) : entry ∈ s.entries ∧ entry.key = k :=
  lookup_mem found

theorem change_keys (s : Gateway) (k : Text) (changed : SourceEntry → SourceEntry)
    (keeps : ∀ entry, (changed entry).key = entry.key) :
    (s.change k changed).entries.map SourceEntry.key = s.entries.map SourceEntry.key :=
  map_updateAt SourceEntry.key s.entries k changed SourceEntry.key keeps

theorem change_untouched (s : Gateway) (k : Text) (changed : SourceEntry → SourceEntry)
    (keeps : ∀ entry, (changed entry).key = entry.key ∧ (changed entry).consumers = entry.consumers) :
    Untouched s (s.change k changed) := by
  refine ⟨rfl, rfl, ?_, ?_⟩
  · have same : ∀ entry, recordedOn (changed entry) = recordedOn entry := by
      intro entry
      rw [recordedOn, recordedOn, (keeps entry).1, (keeps entry).2]
    have views := map_updateAt SourceEntry.key s.entries k changed recordedOn same
    exact congrArg List.flatten views
  · rw [change_keys s k changed fun entry => (keeps entry).1]
    exact id

theorem counted_untouched (s : Gateway) (counters : Counters) :
    Untouched s { s with counters := counters } := ⟨rfl, rfl, rfl, id⟩

theorem oldestIdle_idle (entries : List SourceEntry) (oldest : SourceEntry)
    (found : oldestIdle entries = some oldest) : oldest ∈ entries ∧ oldest.consumers = [] := by
  have general : ∀ e, oldestIdle entries = some e → e ∈ entries ∧ e.consumers = [] := by
    apply foldlRecOn (motive := fun start => ∀ e, start = some e → e ∈ entries ∧ e.consumers = [])
    · simp
    intro start known head listed e chosen
    split at chosen
    · exact known e chosen
    · rename_i idle
      have candidate : head ∈ entries ∧ head.consumers = [] := ⟨listed, by simpa using idle⟩
      split at chosen
      · cases chosen
        exact candidate
      · split at chosen
        · cases chosen
          exact candidate
        · exact known e chosen
  exact general oldest found

theorem flatMap_dropped (entries : List SourceEntry) (keep : SourceEntry → Option SourceEntry)
    (keeps : ∀ entry ∈ entries, ∀ kept, keep entry = some kept → recordedOn kept = recordedOn entry)
    (drops : ∀ entry ∈ entries, keep entry = none → entry.consumers = []) :
    (entries.filterMap keep).flatMap recordedOn = entries.flatMap recordedOn := by
  induction entries with
  | nil => rfl
  | cons head rest ih =>
    have later := ih (fun entry present => keeps entry (mem_cons_of_mem head present))
      (fun entry present => drops entry (mem_cons_of_mem head present))
    cases outcome : keep head with
    | none =>
      have empty := drops head mem_cons_self outcome
      rw [filterMap_cons_none outcome, later, flatMap_cons, recordedOn, empty]
      rfl
    | some kept =>
      have same := keeps head mem_cons_self kept outcome
      rw [filterMap_cons_some outcome, flatMap_cons, later, flatMap_cons, same]

theorem evictOneIdle_untouched (s t : Gateway) (distinct : (s.entries.map SourceEntry.key).Nodup)
    (evicted : s.evictOneIdle = some t) : Untouched s t := by
  obtain ⟨oldest, found, rfl⟩ := Option.map_eq_some_iff.mp evicted
  obtain ⟨listed, idle⟩ := oldestIdle_idle s.entries oldest found
  refine ⟨rfl, rfl, ?_, ?_⟩
  · rw [← filterMap_eq_filter]
    apply flatMap_dropped
    · intro entry _ kept chosen
      simp only [Option.guard] at chosen
      split at chosen
      · cases chosen
        rfl
      · cases chosen
    · intro entry present dropped
      have same : entry.key = oldest.key := by simpa [Option.guard] using dropped
      rw [eq_of_key distinct present listed same]
      exact idle
  · intro _
    exact distinct.sublist (filter_sublist.map SourceEntry.key)

section

variable (s t : Gateway) (cameraId : Text) (profile : SourceProfile) (now : ℚ) (entry : SourceEntry)

theorem ensureEntry_cases (ensured : s.ensureEntry cameraId profile now = some (t, entry)) :
    s.entryAt (key cameraId profile) = some entry ∧ t = s ∨
      s.entryAt (key cameraId profile) = none ∧ entry = freshEntry cameraId profile now ∧
        ∃ left, t = { left with entries := left.entries ++ [entry] } ∧
          (s.entries.length < MAX_TRACKED_SOURCES ∧ left = s ∨
            MAX_TRACKED_SOURCES ≤ s.entries.length ∧ s.evictOneIdle = some left) := by
  unfold Gateway.ensureEntry at ensured
  cases known : s.entryAt (key cameraId profile) with
  | some existing =>
    rw [known] at ensured
    cases ensured
    exact Or.inl ⟨rfl, rfl⟩
  | none =>
    rw [known] at ensured
    obtain ⟨left, room, same⟩ := Option.map_eq_some_iff.mp ensured
    cases same
    refine Or.inr ⟨rfl, rfl, left, rfl, ?_⟩
    split at room
    · rename_i full
      exact Or.inr ⟨full, room⟩
    · rename_i room'
      cases room
      exact Or.inl ⟨by omega, rfl⟩

theorem ensureEntry_key (ensured : s.ensureEntry cameraId profile now = some (t, entry)) :
    entry.key = key cameraId profile ∧ entry ∈ t.entries := by
  rcases ensureEntry_cases s t cameraId profile now entry ensured with
    ⟨known, rfl⟩ | ⟨-, rfl, left, rfl, -⟩
  · exact (entryAt_some known).symm
  · exact ⟨rfl, by simp⟩

theorem ensureEntry_untouched (distinct : (s.entries.map SourceEntry.key).Nodup)
    (ensured : s.ensureEntry cameraId profile now = some (t, entry)) : Untouched s t := by
  rcases ensureEntry_cases s t cameraId profile now entry ensured with
    ⟨-, rfl⟩ | ⟨absent, rfl, left, rfl, room⟩
  · exact Untouched.refl _
  · have stays : Untouched s left ∧ ∀ e ∈ left.entries, e ∈ s.entries := by
      rcases room with ⟨-, rfl⟩ | ⟨-, evicted⟩
      · exact ⟨Untouched.refl _, fun e present => present⟩
      · refine ⟨evictOneIdle_untouched s left distinct evicted, ?_⟩
        obtain ⟨oldest, -, rfl⟩ := Option.map_eq_some_iff.mp evicted
        intro e present
        exact mem_of_mem_filter present
    refine stays.1.trans ⟨rfl, rfl, ?_, ?_⟩
    · show (left.entries ++ [_]).flatMap recordedOn = left.entries.flatMap recordedOn
      rw [flatMap_append]
      exact append_nil _
    · intro kept
      rw [map_append, nodup_append]
      refine ⟨kept, nodup_singleton _, ?_⟩
      intro k listed k' single same
      obtain ⟨e, present, rfl⟩ := mem_map.mp listed
      apply lookup_eq_none absent e (stays.2 e present)
      rw [same, mem_singleton.mp single]
      rfl

theorem note_untouched (changed : SourceEntry → SourceEntry) (counters : Counters)
    (distinct : (s.entries.map SourceEntry.key).Nodup)
    (ensured : s.ensureEntry cameraId profile now = some (t, entry))
    (keeps : ∀ entry, (changed entry).key = entry.key ∧ (changed entry).consumers = entry.consumers) :
    Untouched s { t.change entry.key changed with counters := counters } := by
  have first := ensureEntry_untouched s t cameraId profile now entry distinct ensured
  have second := change_untouched t entry.key changed keeps
  exact (first.trans second).trans (counted_untouched _ counters)

end

variable (cfg : Settings)

theorem failed_keeps (now random : ℚ) (entry : SourceEntry) :
    (Gateway.failed cfg now random entry).1.key = entry.key ∧
      (Gateway.failed cfg now random entry).1.consumers = entry.consumers := by
  unfold Gateway.failed
  dsimp only
  split
  all_goals exact ⟨rfl, rfl⟩

variable (now : ℚ)

theorem sweep_keeps (entry kept : SourceEntry) (swept : Gateway.sweep cfg now entry = some kept) :
    kept.key = entry.key ∧ kept.consumers = entry.consumers := by
  unfold Gateway.sweep at swept
  split at swept
  · cases swept
    exact ⟨rfl, rfl⟩
  · split at swept
    · cases swept
    · cases swept
      exact ⟨rfl, rfl⟩

theorem sweep_drops (entry : SourceEntry) (swept : Gateway.sweep cfg now entry = none) :
    entry.consumers = [] := by
  unfold Gateway.sweep at swept
  split at swept
  · cases swept
  · split at swept
    · rename_i dropped
      simp only [Bool.and_eq_true, List.isEmpty_iff] at dropped
      exact dropped.1.1
    · cases swept

theorem swept_keys (entries : List SourceEntry) :
    ((entries.filterMap (Gateway.sweep cfg now)).map SourceEntry.key).Sublist
      (entries.map SourceEntry.key) := by
  induction entries with
  | nil => exact List.Sublist.slnil
  | cons head rest ih =>
    cases outcome : Gateway.sweep cfg now head with
    | none =>
      rw [filterMap_cons_none outcome, map_cons]
      exact ih.cons _
    | some kept =>
      have named := (sweep_keeps cfg now head kept outcome).1
      rw [filterMap_cons_some outcome, map_cons, map_cons, named]
      exact ih.cons_cons _

theorem tick_untouched (s : Gateway) : Untouched s (s.tick cfg now) := by
  unfold Gateway.tick
  split
  · refine ⟨rfl, rfl, ?_, ?_⟩
    · apply flatMap_dropped
      · intro entry _ kept swept
        obtain ⟨named, consumers⟩ := sweep_keeps cfg now entry kept swept
        rw [recordedOn, recordedOn, named, consumers]
      · intro entry _ swept
        exact sweep_drops cfg now entry swept
    · intro distinct
      exact distinct.sublist (swept_keys cfg now s.entries)
  · exact Untouched.refl s

theorem step_untouched (s : Gateway) (call : Call)
    (distinct : (s.entries.map SourceEntry.key).Nodup)
    (other : (∀ cameraId profile consumer, call.operation ≠ .acquire cameraId profile consumer) ∧
      ∀ id, call.operation ≠ .release id) :
    Untouched s (step cfg s call) := by
  unfold step
  split
  · rename_i cameraId profile consumer acquired
    exact absurd acquired (other.1 cameraId profile consumer)
  · rename_i id released
    exact absurd released (other.2 id)
  · rename_i cameraId profile url _
    unfold Gateway.registerPublishedSource
    split
    · split
      · exact Untouched.refl s
      · rename_i t entry ensured
        apply note_untouched s t cameraId _ call.now entry _ t.counters distinct ensured
        exact fun _ => ⟨rfl, rfl⟩
    · exact Untouched.refl s
  · rename_i cameraId profile _
    unfold Gateway.noteConnecting
    split
    · split
      · exact Untouched.refl s
      · rename_i t entry ensured
        apply note_untouched s t cameraId _ call.now entry _ t.counters distinct ensured
        exact fun _ => ⟨rfl, rfl⟩
    · exact Untouched.refl s
  · rename_i cameraId profile transport frame _
    unfold Gateway.noteProgress
    split
    · split
      · exact Untouched.refl s
      · rename_i t entry ensured
        apply note_untouched s t cameraId _ call.now entry _ _ distinct ensured
        exact fun _ => ⟨rfl, rfl⟩
    · exact Untouched.refl s
  · rename_i cameraId profile _
    unfold Gateway.noteFailure
    split
    · split
      · exact Untouched.refl s
      · rename_i t entry ensured
        apply note_untouched s t cameraId _ call.now entry _ _ distinct ensured
        exact failed_keeps cfg call.now call.random
    · exact Untouched.refl s
  · exact tick_untouched cfg call.now s

theorem recorded_ids (s : Gateway) (sound : Sound s) : ((recorded s).map Prod.snd).Nodup := by
  have same := sound.matched.map Prod.snd
  apply same.nodup_iff.mp
  rw [outstanding, map_map]
  exact sound.ids

theorem mem_recorded (s : Gateway) (k id : Text) : (k, id) ∈ recorded s ↔
      ∃ entry ∈ s.entries, entry.key = k ∧ id ∈ entry.consumers.map Prod.fst := by
  simp only [recorded, recordedOn, mem_flatMap, mem_map, Prod.mk.injEq]
  constructor
  · rintro ⟨entry, present, consumer, listed, named, same⟩
    exact ⟨entry, present, named, consumer, listed, same⟩
  · rintro ⟨entry, present, named, consumer, listed, same⟩
    exact ⟨entry, present, consumer, listed, named, same⟩

theorem leased_of_recorded (s : Gateway) (sound : Sound s) (k id : Text)
    (consumed : (k, id) ∈ recorded s) : id ∈ s.leases.map Prod.fst := by
  obtain ⟨lease, present, same⟩ := mem_map.mp (sound.matched.mem_iff.mpr consumed)
  have named : lease.1 = id := congrArg Prod.snd same
  rw [← named]
  exact mem_map_of_mem present

theorem next_fresh (s : Gateway) (sound : Sound s) (n : ℕ) (later : s.leaseSeq < n) :
    leaseId n ∉ s.leases.map Prod.fst := by
  intro listed
  obtain ⟨m, issued, same⟩ := sound.issued _ listed
  have := leaseId_injective _ _ same
  omega

theorem attach_sound (n : ℕ) (consumer : Text) (s : Gateway) (entry : SourceEntry) (sound : Sound s)
    (member : entry ∈ s.entries) (fresh : leaseId n ∉ s.leases.map Prod.fst)
    (counted : n ≤ s.leaseSeq) : Sound (s.attach now (leaseId n) consumer entry) ∧
      (recorded (s.attach now (leaseId n) consumer entry)).Perm
        ((entry.key, leaseId n) :: recorded s) := by
  have unlisted : leaseId n ∉ entry.consumers.map Prod.fst := by
    intro listed
    apply fresh
    apply leased_of_recorded s sound entry.key
    exact (mem_recorded s entry.key (leaseId n)).mpr ⟨entry, member, rfl, listed⟩
  have leases : (s.attach now (leaseId n) consumer entry).leases =
      s.leases ++ [(leaseId n, ⟨entry.key, entry.cameraId⟩)] := by
    show setField s.leases _ = _
    rw [setField, if_neg fresh]
  have perm : (recorded (s.attach now (leaseId n) consumer entry)).Perm
      ((entry.key, leaseId n) :: recorded s) := by
    obtain ⟨earlier, later, whole, changed⟩ := updateAt_split sound.keys member
      (Gateway.join now (leaseId n) consumer)
    show ((updateAt SourceEntry.key s.entries entry.key _).flatMap recordedOn).Perm _
    rw [changed, recorded, whole, flatMap_append, flatMap_append, flatMap_cons,
      flatMap_cons, recordedOn, Gateway.join, setField, if_neg unlisted, map_append]
    simp only [SourceEntry.key, recordedOn, map_cons, map_nil]
    grind
  refine ⟨⟨?_, ?_, ?_, ?_⟩, perm⟩
  · show ((s.change entry.key _).entries.map SourceEntry.key).Nodup
    rw [change_keys]
    · exact sound.keys
    · exact fun _ => rfl
  · exact Json.setField_nodup _ _ sound.ids
  · rw [outstanding, leases, map_append]
    refine (perm_append_singleton _ _).trans ?_
    exact (sound.matched.cons _).trans perm.symm
  · intro id listed
    rw [leases, map_append, mem_append] at listed
    rcases listed with known | new
    · exact sound.issued id known
    · exact ⟨n, counted, by simpa using new⟩

theorem pickSubstitute_mem (candidates : List SourceEntry) (entry : SourceEntry)
    (picked : pickSubstitute candidates = some entry) : entry ∈ candidates := by
  have inPool : ∀ e ∈ (if (candidates.filter fun e => e.state = .online).isEmpty = true then
      candidates else candidates.filter fun e => e.state = .online), e ∈ candidates := by
    intro e present
    split at present
    · exact present
    · exact mem_of_mem_filter present
  apply inPool
  rcases Option.or_eq_some_iff.mp picked with found | ⟨-, first⟩
  · exact List.mem_of_find?_eq_some found
  · exact List.mem_of_head? first

theorem substituteFor_mem (s : Gateway) (cameraId : Text) (profile : SourceProfile)
    (entry : SourceEntry) (chosen : s.substituteFor cfg cameraId profile = some entry) :
    entry ∈ othersIn s.entries cameraId profile := by
  unfold Gateway.substituteFor at chosen
  dsimp only at chosen
  split at chosen
  · split at chosen
    · exact pickSubstitute_mem _ entry chosen
    · cases chosen
  · cases chosen

/-- The acquisition finds the gateway off, or no origin and no room: every origin has a consumer. -/
def Unserved (s : Gateway) (cameraId : Text) (profile : SourceProfile) : Prop :=
  cfg.isEnabled = false ∨
    s.entryAt (key cameraId profile) = none ∧ s.substituteFor cfg cameraId profile = none ∧
      MAX_TRACKED_SOURCES ≤ s.entries.length ∧ ∀ entry ∈ s.entries, entry.consumers ≠ []

theorem foldl_none {α : Type} (pick : Option α → α → Option α) (passed : α → Prop) (items : List α)
    (start : Option α) (step : ∀ o a, pick o a = none → o = none ∧ passed a)
    (none' : items.foldl pick start = none) : start = none ∧ ∀ a ∈ items, passed a := by
  induction items generalizing start with
  | nil => exact ⟨none', by simp⟩
  | cons head rest ih =>
    obtain ⟨first, later⟩ := ih _ none'
    obtain ⟨nothing, here⟩ := step start head first
    exact ⟨nothing, forall_mem_cons.mpr ⟨here, later⟩⟩

theorem oldestIdle_none (entries : List SourceEntry) (none' : oldestIdle entries = none) :
    ∀ entry ∈ entries, entry.consumers ≠ [] := by
  refine (foldl_none _ _ entries none ?_ none').2
  intro oldest entry nothing
  cases consumers : entry.consumers with
  | nil =>
    simp only [consumers, List.isEmpty_nil, Bool.not_true, Bool.false_eq_true, if_false] at nothing
    split at nothing
    · cases nothing
    · split at nothing
      all_goals cases nothing
  | cons consumer rest =>
    simp only [consumers, List.isEmpty_cons, Bool.not_false, if_true] at nothing
    exact ⟨nothing, by simp⟩

theorem ensureEntry_crowded (s : Gateway) (cameraId : Text) (profile : SourceProfile)
    (refused : s.ensureEntry cameraId profile now = none) :
    s.entryAt (key cameraId profile) = none ∧ MAX_TRACKED_SOURCES ≤ s.entries.length ∧
      ∀ entry ∈ s.entries, entry.consumers ≠ [] := by
  unfold Gateway.ensureEntry at refused
  split at refused
  · cases refused
  · rename_i absent
    rw [Option.map_eq_none_iff] at refused
    split at refused
    · rename_i full
      exact ⟨absent, full, oldestIdle_none s.entries (Option.map_eq_none_iff.mp refused)⟩
    · cases refused

/-- An acquisition hands out an inert lease or joins one origin of a registry with the same leases. -/
theorem acquire_cases (s : Gateway) (cameraId profile consumer : Text)
    (distinct : (s.entries.map SourceEntry.key).Nodup) :
    let answer := s.acquire cfg now cameraId profile consumer
    Unserved cfg s cameraId (normalizeSourceProfile profile) ∧
        answer.1 = { s with leaseSeq := s.leaseSeq + 1 } ∨
      ¬Unserved cfg s cameraId (normalizeSourceProfile profile) ∧
        ∃ t entry, Untouched { s with leaseSeq := s.leaseSeq + 1 } t ∧ entry ∈ t.entries ∧
          entry.key = key cameraId answer.2.servedProfile ∧
          answer.1 = t.attach now (leaseId (s.leaseSeq + 1)) consumer entry := by
  unfold Gateway.acquire
  dsimp only
  split
  · rename_i enabled
    have seqless : Gateway.substituteFor cfg { s with leaseSeq := s.leaseSeq + 1 } cameraId
        (normalizeSourceProfile profile) =
          s.substituteFor cfg cameraId (normalizeSourceProfile profile) := rfl
    split
    · rename_i substitute chosen
      have listed := substituteFor_mem cfg _ cameraId _ substitute chosen
      have active := mem_of_mem_filter listed
      have own : substitute.cameraId = cameraId := by
        have := (mem_filter.mp active).2
        simp_all
      have served : substitute.key = key cameraId substitute.profile := by
        rw [SourceEntry.key, own]
      refine Or.inr ⟨?_, ?_⟩
      · rintro (off | ⟨-, alone, -⟩)
        · simp [off] at enabled
        · rw [← seqless, chosen] at alone
          cases alone
      · refine ⟨_, substitute, counted_untouched _ _, ?_, served, rfl⟩
        exact mem_of_mem_filter active
    · rename_i alone
      split
      · rename_i refused
        exact Or.inl ⟨Or.inr ⟨(ensureEntry_crowded now _ cameraId _ refused).1, alone,
          (ensureEntry_crowded now _ cameraId _ refused).2⟩, rfl⟩
      · rename_i t entry ensured
        obtain ⟨named, listed⟩ := ensureEntry_key _ t cameraId _ now entry ensured
        refine Or.inr ⟨?_, t, entry, ?_, listed, ?_, rfl⟩
        · rintro (off | ⟨absent, -, full, busy⟩)
          · simp [off] at enabled
          · have none' : oldestIdle s.entries = none := by
              cases found : oldestIdle s.entries with
              | none => rfl
              | some oldest =>
                obtain ⟨present, idle⟩ := oldestIdle_idle s.entries oldest found
                exact absurd idle (busy oldest present)
            rcases ensureEntry_cases _ t cameraId _ now entry ensured with
              ⟨known, -⟩ | ⟨-, -, left, -, ⟨short, -⟩ | ⟨-, evicted⟩⟩
            · exact absurd (known.symm.trans absent) (by simp)
            · exact absurd full (not_le.mpr short)
            · obtain ⟨oldest, found, -⟩ := Option.map_eq_some_iff.mp evicted
              rw [none'] at found
              cases found
        · exact ensureEntry_untouched _ t cameraId _ now entry distinct ensured
        · have own := (key_injective _ _ _ _ named).1
          rw [← own, SourceEntry.key]
  · rename_i off
    exact Or.inl ⟨Or.inl (by simpa using off), rfl⟩

theorem numbered_sound (s : Gateway) (sound : Sound s) :
    Sound { s with leaseSeq := s.leaseSeq + 1 } := by
  refine ⟨sound.keys, sound.ids, sound.matched, ?_⟩
  intro id listed
  obtain ⟨n, below, same⟩ := sound.issued id listed
  exact ⟨n, Nat.le_succ_of_le below, same⟩

theorem acquire_sound (s : Gateway) (cameraId profile consumer : Text) (sound : Sound s) :
    Sound (s.acquire cfg now cameraId profile consumer).1 ∧
      recorded s ⊆ recorded (s.acquire cfg now cameraId profile consumer).1 := by
  have numbered := numbered_sound s sound
  rcases acquire_cases cfg now s cameraId profile consumer sound.keys with
    ⟨-, inert⟩ | ⟨-, t, entry, same, member, -, joined⟩
  · rw [inert]
    exact ⟨numbered, fun pair present => present⟩
  · have fresh : leaseId (s.leaseSeq + 1) ∉ t.leases.map Prod.fst := by
      rw [same.leases]
      exact next_fresh s sound _ (by omega)
    have counted : s.leaseSeq + 1 ≤ t.leaseSeq := by
      rw [same.leaseSeq]
    obtain ⟨attached, perm⟩ :=
      attach_sound now _ consumer t entry (same.sound numbered) member fresh counted
    rw [joined]
    refine ⟨attached, ?_⟩
    intro pair present
    apply perm.mem_iff.mpr
    apply mem_cons_of_mem
    rw [same.recorded]
    exact present

theorem release_unknown (s : Gateway) (id : Text) (unknown : id ∉ s.leases.map Prod.fst) :
    s.release now id = s := by
  have absent : field s.leases id = none := by
    cases known : field s.leases id with
    | none => rfl
    | some ref =>
      obtain ⟨lease, found, -⟩ := Option.map_eq_some_iff.mp known
      have named := List.find?_some found
      rw [← of_decide_eq_true named] at unknown
      exact absurd (mem_map_of_mem (List.mem_of_find?_eq_some found)) unknown
  unfold Gateway.release
  rw [absent]
  split
  all_goals rfl

theorem release_known (s : Gateway) (sound : Sound s) (id : Text)
    (known : id ∈ s.leases.map Prod.fst) :
    ∃ ref, field s.leases id = some ref ∧ (ref.key, id) ∈ recorded s ∧
      s.release now id =
        { s.change ref.key (Gateway.leave now id) with
          leases := s.leases.filter fun lease => lease.1 ≠ id
          counters := { s.counters with releases := s.counters.releases + 1 } } := by
  obtain ⟨lease, present, rfl⟩ := mem_map.mp known
  have found := (Json.field_eq_some s.leases sound.ids lease.1 lease.2).mpr present
  have consumed : (lease.2.key, lease.1) ∈ recorded s :=
    sound.matched.mem_iff.mp (mem_map_of_mem present)
  obtain ⟨entry, listed, named, -⟩ := (mem_recorded s _ _).mp consumed
  have located : s.entryAt lease.2.key = some entry := by
    rw [← named]
    exact lookup_eq_some sound.keys listed
  have nonempty : lease.1.isEmpty = false := by
    obtain ⟨n, -, numbered⟩ := sound.issued lease.1 known
    rw [numbered, leaseId_nonempty]
  refine ⟨lease.2, found, consumed, ?_⟩
  unfold Gateway.release
  rw [found, nonempty]
  dsimp only
  rw [located]
  rfl

theorem leave_key (id : Text) (entry : SourceEntry) :
    (Gateway.leave now id entry).key = entry.key := rfl

theorem release_recorded (s : Gateway) (sound : Sound s) (id : Text)
    (known : id ∈ s.leases.map Prod.fst) :
    recorded (s.release now id) = (recorded s).filter fun pair => pair.2 ≠ id := by
  obtain ⟨ref, -, consumed, released⟩ := release_known now s sound id known
  have others : ∀ entry ∈ s.entries,
      recordedOn (if entry.key = ref.key then Gateway.leave now id entry else entry) =
        (recordedOn entry).filter fun pair => pair.2 ≠ id := by
    intro entry present
    split
    · rw [recordedOn, recordedOn, filter_map]
      rfl
    · rename_i other
      symm
      apply filter_eq_self.mpr
      intro pair inEntry
      have inRecorded : pair ∈ recorded s := mem_flatMap.mpr ⟨entry, present, inEntry⟩
      apply decide_eq_true
      intro same
      have equal := inj_on_of_nodup_map (recorded_ids s sound) inRecorded consumed same
      obtain ⟨consumer, -, rfl⟩ := mem_map.mp inEntry
      exact other (congrArg Prod.fst equal)
  rw [released]
  show (updateAt SourceEntry.key s.entries ref.key (Gateway.leave now id)).flatMap recordedOn =
    (s.entries.flatMap recordedOn).filter _
  rw [updateAt, flatMap_map, filter_flatMap]
  exact flatMap_congr others

theorem release_sound (s : Gateway) (sound : Sound s) (id : Text)
    (known : id ∈ s.leases.map Prod.fst) : Sound (s.release now id) := by
  have pairs := release_recorded now s sound id known
  obtain ⟨ref, -, -, released⟩ := release_known now s sound id known
  have leases : (s.release now id).leases = s.leases.filter fun lease => lease.1 ≠ id := by
    rw [released]
  refine ⟨?_, ?_, ?_, ?_⟩
  · rw [released]
    rw [change_keys s ref.key _ (leave_key now id)]
    exact sound.keys
  · rw [leases]
    exact sound.ids.sublist (filter_sublist.map Prod.fst)
  · rw [pairs, outstanding, leases]
    have left := sound.matched.filter fun pair => pair.2 ≠ id
    rw [outstanding, filter_map] at left
    exact left
  · intro other listed
    rw [leases] at listed
    obtain ⟨lease, present, rfl⟩ := mem_map.mp listed
    rw [released]
    exact sound.issued lease.1 (mem_map_of_mem (mem_of_mem_filter present))

theorem step_sound (s : Gateway) (call : Call) (sound : Sound s) : Sound (step cfg s call) ∧
      ∀ pair ∈ recorded s, pair ∈ recorded (step cfg s call) ∨ call.operation = .release pair.2 := by
  by_cases other : (∀ cameraId profile consumer,
      call.operation ≠ .acquire cameraId profile consumer) ∧ ∀ id, call.operation ≠ .release id
  · have same := step_untouched cfg s call sound.keys other
    refine ⟨same.sound sound, ?_⟩
    intro pair present
    left
    rw [same.recorded]
    exact present
  · cases operation : call.operation with
    | acquire cameraId profile consumer =>
      obtain ⟨kept, grows⟩ := acquire_sound cfg call.now s cameraId profile consumer sound
      have taken : step cfg s call = (s.acquire cfg call.now cameraId profile consumer).1 := by
        unfold step
        rw [operation]
      rw [taken]
      exact ⟨kept, fun pair present => Or.inl (grows present)⟩
    | release id =>
      have taken : step cfg s call = s.release call.now id := by
        unfold step
        rw [operation]
      rw [taken]
      by_cases known : id ∈ s.leases.map Prod.fst
      · refine ⟨release_sound call.now s sound id known, ?_⟩
        intro pair present
        rw [release_recorded call.now s sound id known, mem_filter]
        by_cases same : pair.2 = id
        · rw [same]
          exact Or.inr rfl
        · exact Or.inl ⟨present, decide_eq_true same⟩
      · rw [release_unknown call.now s id known]
        exact ⟨sound, fun pair present => Or.inl present⟩
    | registerPublishedSource | noteConnecting | noteProgress | noteFailure | tick =>
      exact absurd ⟨by rw [operation]; nofun, by rw [operation]; nofun⟩ other

theorem after_sound (s : Gateway) (calls : List (Settings × Call)) (sound : Sound s) :
    Sound (after s calls) := by
  induction calls generalizing s with
  | nil => exact sound
  | cons call rest ih => exact ih _ (step_sound call.1 s call.2 sound).1

theorem step_ids (s : Gateway) (call : Call) (sound : Sound s) :
    s.leaseSeq ≤ (step cfg s call).leaseSeq ∧
      ∀ id ∈ (step cfg s call).leases.map Prod.fst,
        id ∈ s.leases.map Prod.fst ∨ id = leaseId (s.leaseSeq + 1) := by
  by_cases other : (∀ cameraId profile consumer,
      call.operation ≠ .acquire cameraId profile consumer) ∧ ∀ id, call.operation ≠ .release id
  · have same := step_untouched cfg s call sound.keys other
    rw [same.leases, same.leaseSeq]
    exact ⟨le_refl _, fun id listed => Or.inl listed⟩
  · cases operation : call.operation with
    | acquire cameraId profile consumer =>
      have taken : step cfg s call = (s.acquire cfg call.now cameraId profile consumer).1 := by
        unfold step
        rw [operation]
      rw [taken]
      rcases acquire_cases cfg call.now s cameraId profile consumer sound.keys with
        ⟨-, inert⟩ | ⟨-, t, entry, same, -, -, joined⟩
      · rw [inert]
        exact ⟨Nat.le_succ _, fun id listed => Or.inl listed⟩
      · rw [joined]
        constructor
        · show s.leaseSeq ≤ t.leaseSeq
          rw [same.leaseSeq]
          exact Nat.le_succ _
        · intro id listed
          obtain ⟨lease, present, rfl⟩ := mem_map.mp listed
          rcases (Json.mem_setField t.leases _ lease).mp present with rfl | ⟨known, -⟩
          · exact Or.inr rfl
          · rw [same.leases] at known
            exact Or.inl (mem_map_of_mem known)
    | release id =>
      have taken : step cfg s call = s.release call.now id := by
        unfold step
        rw [operation]
      rw [taken]
      by_cases known : id ∈ s.leases.map Prod.fst
      · obtain ⟨ref, -, -, released⟩ := release_known call.now s sound id known
        rw [released]
        refine ⟨le_refl _, ?_⟩
        intro other listed
        left
        exact (filter_sublist.map Prod.fst).subset listed
      · rw [release_unknown call.now s id known]
        exact ⟨le_refl _, fun other listed => Or.inl listed⟩
    | registerPublishedSource | noteConnecting | noteProgress | noteFailure | tick =>
      exact absurd ⟨by rw [operation]; nofun, by rw [operation]; nofun⟩ other

theorem after_gone (s : Gateway) (calls : List (Settings × Call)) (n : ℕ) (sound : Sound s)
    (handed : n ≤ s.leaseSeq) (gone : leaseId n ∉ s.leases.map Prod.fst) :
    leaseId n ∉ (after s calls).leases.map Prod.fst := by
  induction calls generalizing s with
  | nil => exact gone
  | cons call rest ih =>
    obtain ⟨grows, ids⟩ := step_ids call.1 s call.2 sound
    apply ih _ (step_sound call.1 s call.2 sound).1 (le_trans handed grows)
    intro listed
    rcases ids _ listed with known | next
    · exact gone known
    · have := leaseId_injective _ _ next
      omega

theorem release_gone (s : Gateway) (sound : Sound s) (id : Text) :
    id ∉ (s.release now id).leases.map Prod.fst := by
  by_cases known : id ∈ s.leases.map Prod.fst
  · obtain ⟨ref, -, -, released⟩ := release_known now s sound id known
    rw [released]
    simp
  · rw [release_unknown now s id known]
    exact known

theorem release_others (s : Gateway) (id : Text) (ref : LeaseRef)
    (found : field s.leases id = some ref) (k : Text) (apart : k ≠ ref.key) :
    (s.release now id).entryAt k = s.entryAt k := by
  unfold Gateway.release
  split
  · rfl
  · rw [found]
    dsimp only
    split
    · rfl
    · exact lookup_updateAt_other s.entries _ (leave_key now id) apart

theorem dropped_idle (s : Gateway) (call : Call) (sound : Sound s) (entry : SourceEntry)
    (present : entry ∈ s.entries)
    (dropped : entry.key ∉ (step cfg s call).entries.map SourceEntry.key) :
    entry.consumers = [] := by
  cases consumers : entry.consumers with
  | nil => rfl
  | cons consumer rest =>
    exfalso
    have inEntry : (entry.key, consumer.1) ∈ recorded s := by
      apply (mem_recorded s _ _).mpr
      refine ⟨entry, present, rfl, ?_⟩
      rw [consumers]
      exact mem_cons_self
    rcases (step_sound cfg s call sound).2 _ inEntry with stays | released
    · obtain ⟨kept, listed, named, -⟩ := (mem_recorded _ _ _).mp stays
      apply dropped
      rw [← named]
      exact mem_map_of_mem listed
    · apply dropped
      have taken : step cfg s call = s.release call.now consumer.1 := by
        unfold step
        rw [released]
      have known : consumer.1 ∈ s.leases.map Prod.fst :=
        leased_of_recorded s sound _ _ inEntry
      obtain ⟨ref, -, -, changed⟩ := release_known call.now s sound consumer.1 known
      rw [taken, changed]
      rw [change_keys s ref.key _ (leave_key call.now consumer.1)]
      exact mem_map_of_mem present

theorem release_outstanding (s : Gateway) (sound : Sound s) (id : Text)
    (known : id ∈ s.leases.map Prod.fst) :
    outstanding (s.release now id) = (outstanding s).filter fun pair => pair.2 ≠ id := by
  obtain ⟨ref, -, -, released⟩ := release_known now s sound id known
  rw [outstanding, released, outstanding, filter_map]
  rfl

/-- The lease is outstanding for the origin under `k`, which has its consumer; nothing else changed. -/
def Counted (s t : Gateway) (k id consumer : Text) : Prop :=
  (∃ entry, t.entryAt k = some entry ∧ (id, consumer) ∈ entry.consumers) ∧
    (outstanding t).Perm ((k, id) :: outstanding s) ∧ (recorded t).Perm ((k, id) :: recorded s)

theorem acquire_id (s : Gateway) (cameraId profile consumer : Text) :
    (s.acquire cfg now cameraId profile consumer).2.id = leaseId (s.leaseSeq + 1) := by
  unfold Gateway.acquire
  dsimp only
  split
  · split
    · rfl
    · split
      all_goals rfl
  · rfl

theorem acquire_counts (s : Gateway) (sound : Sound s) (cameraId profile consumer : Text) :
    let answer := s.acquire cfg now cameraId profile consumer
    (Unserved cfg s cameraId (normalizeSourceProfile profile) →
        outstanding answer.1 = outstanding s ∧ recorded answer.1 = recorded s) ∧
      (¬Unserved cfg s cameraId (normalizeSourceProfile profile) →
        Counted s answer.1 (key cameraId answer.2.servedProfile) answer.2.id consumer) := by
  intro answer
  have kept := (acquire_sound cfg now s cameraId profile consumer sound).1
  rcases acquire_cases cfg now s cameraId profile consumer sound.keys with
    ⟨refused, inert⟩ | ⟨served, t, entry, same, member, named, joined⟩
  · refine ⟨fun _ => ?_, absurd refused⟩
    rw [inert]
    exact ⟨rfl, rfl⟩
  · refine ⟨fun refused => absurd refused served, fun _ => ?_⟩
    have numbered := same.sound (numbered_sound s sound)
    have fresh : leaseId (s.leaseSeq + 1) ∉ t.leases.map Prod.fst := by
      rw [same.leases]
      exact next_fresh s sound _ (by omega)
    have counted : s.leaseSeq + 1 ≤ t.leaseSeq := by
      rw [same.leaseSeq]
    have perm := (attach_sound now _ consumer t entry numbered member fresh counted).2
    rw [same.recorded, ← joined] at perm
    rw [acquire_id, ← named]
    refine ⟨⟨Gateway.join now (leaseId (s.leaseSeq + 1)) consumer entry, ?_, ?_⟩, ?_, perm⟩
    · rw [joined]
      show lookup SourceEntry.key (updateAt _ t.entries entry.key _) entry.key = _
      have keeps : ∀ e, (Gateway.join now (leaseId (s.leaseSeq + 1)) consumer e).key = e.key :=
        fun _ => rfl
      rw [lookup_updateAt_self t.entries entry.key _ keeps, lookup_eq_some numbered.keys member]
      rfl
    · exact (Json.mem_setField _ _ _).mpr (Or.inl rfl)
    · exact (kept.matched.trans perm).trans (sound.matched.symm.cons _)

/-- In every run the outstanding leases are the recorded consumers, one for one. An acquisition that
finds an origin, or room for one, adds its new lease and its consumer to the origin it names; the
release of an outstanding lease takes both away, and nothing else changes them. A lease that is not
outstanding, or no longer, releases nothing; only origins without a consumer are dropped, and a
release leaves every other origin as it was. -/
theorem leases_match_consumers (calls : List (Settings × Call)) : let s := after opened calls
    ((outstanding s).Perm (recorded s) ∧ (s.leases.map Prod.fst).Nodup ∧
        (s.entries.map SourceEntry.key).Nodup) ∧
      (∀ cfg now cameraId profile consumer,
        let answer := s.acquire cfg now cameraId profile consumer
        answer.2.id ∉ s.leases.map Prod.fst ∧
          (Unserved cfg s cameraId (normalizeSourceProfile profile) →
            outstanding answer.1 = outstanding s ∧ recorded answer.1 = recorded s) ∧
          (¬Unserved cfg s cameraId (normalizeSourceProfile profile) →
            Counted s answer.1 (key cameraId answer.2.servedProfile) answer.2.id consumer)) ∧
      (∀ now id, id ∈ s.leases.map Prod.fst →
        outstanding (s.release now id) = (outstanding s).filter (fun pair => pair.2 ≠ id) ∧
          recorded (s.release now id) = (recorded s).filter fun pair => pair.2 ≠ id) ∧
      (∀ cfg call, (∀ cameraId profile consumer,
          call.operation ≠ .acquire cameraId profile consumer) →
        (∀ id, call.operation ≠ .release id) →
          outstanding (step cfg s call) = outstanding s ∧ recorded (step cfg s call) = recorded s) ∧
      (∀ now id, id ∉ s.leases.map Prod.fst → s.release now id = s) ∧
      (∀ now id later now', id ∈ s.leases.map Prod.fst →
        (after (s.release now id) later).release now' id = after (s.release now id) later) ∧
      (∀ cfg call, ∀ entry ∈ s.entries,
        entry.key ∉ (step cfg s call).entries.map SourceEntry.key → entry.consumers = []) ∧
      ∀ now id ref, field s.leases id = some ref →
        ∀ k ≠ ref.key, (s.release now id).entryAt k = s.entryAt k := by
  intro s
  have sound : Sound s := after_sound opened calls opened_sound
  refine ⟨⟨sound.matched, sound.ids, sound.keys⟩, ?_, ?_, ?_, ?_, ?_, ?_, ?_⟩
  · intro cfg now cameraId profile consumer answer
    refine ⟨?_, acquire_counts cfg now s sound cameraId profile consumer⟩
    rw [acquire_id]
    exact next_fresh s sound _ (by omega)
  · intro now id known
    exact ⟨release_outstanding now s sound id known, release_recorded now s sound id known⟩
  · intro cfg call notAcquired notReleased
    have same := step_untouched cfg s call sound.keys ⟨notAcquired, notReleased⟩
    exact ⟨by rw [outstanding, same.leases, outstanding], same.recorded⟩
  · intro now id unknown
    exact release_unknown now s id unknown
  · intro now id later now' known
    obtain ⟨n, handed, rfl⟩ := sound.issued id known
    apply release_unknown
    apply after_gone _ later n (release_sound now s sound _ known) _ (release_gone now s sound _)
    obtain ⟨ref, -, -, released⟩ := release_known now s sound _ known
    rw [released]
    exact handed
  · intro cfg call entry present dropped
    exact dropped_idle cfg s call sound entry present dropped
  · intro now id ref found k apart
    exact release_others now s id ref found k apart

/-- The gateway switched on, with the default of every number. -/
def standard : Settings :=
  { enabled := ['t', 'r', 'u', 'e'], maxExternalPerCamera := none, stallTimeoutMs := none,
    backoffBaseMs := none, backoffCapMs := none, backoffJitter := none, circuitThreshold := none,
    circuitOpenMs := none, circuitMaxOpenMs := none, idleTtlMs := none }

def twoCameras : List (Settings × Call) :=
  [(standard, ⟨0, 0, .acquire ['a'] ['m', 'a', 'i', 'n'] ['r']⟩),
    (standard, ⟨1, 0, .acquire ['b'] ['m', 'a', 'i', 'n'] ['r']⟩)]

theorem twoCameras_leases : let s := after opened twoCameras
    Counted s (s.acquire standard 2 ['a'] ['s', 'u', 'b'] ['l']).1 (key ['a'] .sub) (leaseId 3)
        ['l'] ∧
      recorded (s.release 2 (leaseId 1)) = [(key ['b'] .main, leaseId 2)] ∧
      outstanding (step standard s ⟨2, 0, .tick⟩) = outstanding s ∧
      s.release 2 (leaseId 7) = s ∧
      (after (s.release 2 (leaseId 1)) []).release 3 (leaseId 1) =
        after (s.release 2 (leaseId 1)) [] ∧
      (s.release 2 (leaseId 1)).entryAt (key ['b'] .main) = s.entryAt (key ['b'] .main) := by
  obtain ⟨-, acquired, released, other, unknown, twice, -, others⟩ :=
    leases_match_consumers twoCameras
  refine ⟨?_, ?_, ?_, unknown 2 (leaseId 7) (by decide +kernel), ?_, ?_⟩
  · apply (acquired standard 2 ['a'] ['s', 'u', 'b'] ['l']).2.2
    rintro (off | ⟨-, -, full, -⟩)
    · exact absurd off (by decide +kernel)
    · exact absurd full (by decide +kernel)
  · decide +kernel
  · exact (other standard ⟨2, 0, .tick⟩ (by simp) (by simp)).1
  · exact twice 2 (leaseId 1) [] 3 (by decide +kernel)
  · exact others 2 (leaseId 1) ⟨key ['a'] .main, ['a']⟩ (by decide +kernel) _ (by decide +kernel)

end DracVms.SourceGateway
