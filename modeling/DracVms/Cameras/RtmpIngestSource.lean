import DracVms.Cameras.PublishGateSafety

namespace DracVms.PublishGate

open List KeyedList

open Json (Text)
open JsString (trim)
open KeyedList (updateAt)
open RtmpIngest

/-! The paths at which a camera is looked for. -/

section Sources

variable (crypto : Crypto)

/-- A key that does not open gives no paths. -/
def candidatePaths (camera : Camera) : List Text :=
  match camera.rtmpIngestPath.filter isAcceptableIngestPath with
  | some path => ingestProfilePathCandidates (normalizeIngestPath path)
  | none =>
    match camera.rtmpIngestKeyEncrypted.filter (· ≠ []) with
    | none => []
    | some encrypted =>
      match crypto.decrypt encrypted with
      | some key => if isValidIngestKey key then ingestPathNames key else []
      | none => []

/-- A camera may publish where it is looked for, and only there. The names of paths have no blanks
around them. -/
def FoundWhereAuthorized (cameras : List Camera) (camera : Camera) : Prop :=
  ∀ path, trim path = path →
    (publisherOf crypto cameras path = some camera ↔ path ∈ candidatePaths crypto camera)

/-- When a camera may publish exactly where it is looked for. It has a key and no path of its own;
or it has no key, and nobody else has the one that its path carries; or its path is a profile, no
profile is as short as another, and the profiles that it is not looked for are of other cameras. -/
def Findable (cameras : List Camera) (camera : Camera) : Prop :=
  match camera.rtmpIngestKeyHash, camera.rtmpIngestPath with
  | none, none => True
  | some _, none => camera.isLive = true
  | some _, some _ => False
  | none, some bound => camera.isLive = true ∧
      match parseVendorProfilePath bound with
      | none => ∀ key, ingestKeyFromPathName bound = some key → ∀ other ∈ cameras,
          other.isLive = true → other.rtmpIngestKeyHash ≠ some (crypto.hashIngestKey key)
      | some parsed => (bound = parsed.path 0 ∨ bound = parsed.path 1) ∧
          bound.length = maxIngestPath ∧
          (∀ other ∈ cameras, other.id ≠ camera.id → ∀ path ∈ other.rtmpIngestPath,
            path ≠ parsed.path 0 ∧ path ≠ parsed.path 1) ∧
          ∀ j, 2 ≤ j → j ≤ maxVendorProfileIndex → ∃ other ∈ cameras, other.id ≠ camera.id ∧
            other.rtmpIngestPath = some (parsed.path j)

end Sources

/-! What holds of the cameras in every state. -/

section Sound

variable (crypto : Crypto)

structure Camera.Sound (camera : Camera) : Prop where
  key : (camera.rtmpIngestKeyHash = none ∧ camera.rtmpIngestKeyEncrypted = none) ∨
    ∃ key, isValidIngestKey key = true ∧
      camera.rtmpIngestKeyHash = some (crypto.hashIngestKey key) ∧
      camera.rtmpIngestKeyEncrypted = some (crypto.encrypt key)
  path : ∀ bound ∈ camera.rtmpIngestPath, isAcceptableIngestPath bound = true ∧ trim bound = bound

structure Sound (s : Registry) : Prop where
  distinct : (s.cameras.map Camera.id).Nodup
  cameras : ∀ camera ∈ s.cameras, camera.Sound crypto
  hashes : ∀ a ∈ s.cameras, ∀ b ∈ s.cameras, ∀ hash ∈ a.rtmpIngestKeyHash,
    b.rtmpIngestKeyHash = some hash → a.id = b.id
  paths : ∀ a ∈ s.cameras, ∀ b ∈ s.cameras, ∀ path ∈ a.rtmpIngestPath,
    b.rtmpIngestPath = some path → a.id = b.id
  bindings : ∀ binding ∈ s.bindings,
    isAcceptableIngestPath binding.path = true ∧ trim binding.path = binding.path

theorem sound_empty : Sound crypto Registry.empty := by
  constructor
  · exact nodup_nil
  all_goals
    intro _ listed
    cases listed

end Sound

section SoundSteps

variable {crypto : Crypto} {s t : Registry}

theorem Sound.change (sound : Sound crypto s) (id : Text) (change : Camera → Camera)
    (sameId : ∀ camera, (change camera).id = camera.id)
    (good : ∀ camera ∈ s.cameras, camera.id = id → (change camera).Sound crypto)
    (ownHash : ∀ camera ∈ s.cameras, camera.id = id → ∀ hash ∈ (change camera).rtmpIngestKeyHash,
      ∀ other ∈ s.cameras, other.rtmpIngestKeyHash = some hash → other.id = id)
    (ownPath : ∀ camera ∈ s.cameras, camera.id = id → ∀ path ∈ (change camera).rtmpIngestPath,
      ∀ other ∈ s.cameras, other.rtmpIngestPath = some path → other.id = id) :
    Sound crypto { s with cameras := updateAt Camera.id s.cameras id change } := by
  constructor
  case distinct =>
    rw [updateAt_ids s.cameras id change sameId]
    exact sound.distinct
  case cameras =>
    intro camera listed
    obtain ⟨old, here, ⟨-, rfl⟩ | ⟨named, rfl⟩⟩ := of_mem_updateAt listed
    · exact sound.cameras camera here
    · exact good old here named
  case hashes =>
    intro a first b second hash has same
    obtain ⟨a', here, ⟨-, rfl⟩ | ⟨named, rfl⟩⟩ := of_mem_updateAt first
    · obtain ⟨b', there, ⟨-, rfl⟩ | ⟨named', rfl⟩⟩ := of_mem_updateAt second
      · exact sound.hashes a here b there hash has same
      · rw [sameId b', named']
        exact ownHash b' there named' hash same a here has
    · obtain ⟨b', there, ⟨-, rfl⟩ | ⟨named', rfl⟩⟩ := of_mem_updateAt second
      · rw [sameId a', named]
        exact (ownHash a' here named hash has b there same).symm
      · rw [sameId a', sameId b', named, named']
  case paths =>
    intro a first b second path has same
    obtain ⟨a', here, ⟨-, rfl⟩ | ⟨named, rfl⟩⟩ := of_mem_updateAt first
    · obtain ⟨b', there, ⟨-, rfl⟩ | ⟨named', rfl⟩⟩ := of_mem_updateAt second
      · exact sound.paths a here b there path has same
      · rw [sameId b', named']
        exact ownPath b' there named' path same a here has
    · obtain ⟨b', there, ⟨-, rfl⟩ | ⟨named', rfl⟩⟩ := of_mem_updateAt second
      · rw [sameId a', named]
        exact (ownPath a' here named path has b there same).symm
      · rw [sameId a', sameId b', named, named']
  case bindings => exact sound.bindings

theorem Sound.add (sound : Sound crypto s) (camera : Camera)
    (unknown : knows s.cameras camera.id = false) (good : camera.Sound crypto)
    (ownHash : ∀ hash ∈ camera.rtmpIngestKeyHash, ∀ other ∈ s.cameras,
      other.rtmpIngestKeyHash ≠ some hash)
    (unbound : camera.rtmpIngestPath = none) :
    Sound crypto { s with cameras := s.cameras ++ [camera] } := by
  constructor
  case distinct => exact added_distinct sound.distinct unknown
  case cameras =>
    intro other listed
    rcases mem_append.mp listed with old | new
    · exact sound.cameras other old
    · rw [mem_singleton.mp new]
      exact good
  case hashes =>
    intro a first b second hash has same
    rcases mem_append.mp first with old | new
    · rcases mem_append.mp second with old' | new'
      · exact sound.hashes a old b old' hash has same
      · rw [mem_singleton.mp new'] at same
        exact absurd has (ownHash hash same a old)
    · rw [mem_singleton.mp new] at has ⊢
      rcases mem_append.mp second with old' | new'
      · exact absurd same (ownHash hash has b old')
      · rw [mem_singleton.mp new']
  case paths =>
    intro a first b second path has same
    rcases mem_append.mp first with old | new
    · rcases mem_append.mp second with old' | new'
      · exact sound.paths a old b old' path has same
      · rw [mem_singleton.mp new', unbound] at same
        cases same
    · rw [mem_singleton.mp new, unbound] at has
      cases has
  case bindings => exact sound.bindings

theorem Sound.rebind (sound : Sound crypto s) (bindings : List Binding)
    (good : ∀ binding ∈ bindings, isAcceptableIngestPath binding.path = true ∧ trim binding.path =
      binding.path) :
    Sound crypto { s with bindings := bindings } :=
  ⟨sound.distinct, sound.cameras, sound.hashes, sound.paths, good⟩

theorem Sound.reissue (sound : Sound crypto s) (issued : List (Text × Text)) :
    Sound crypto { s with issued := issued } :=
  ⟨sound.distinct, sound.cameras, sound.hashes, sound.paths, sound.bindings⟩

theorem hash_free {cameras : List Camera} {id key : Text}
    (free : hashTaken crypto cameras id key = false) {other : Camera} (listed : other ∈ cameras)
    (has : other.rtmpIngestKeyHash = some (crypto.hashIngestKey key)) : other.id = id := by
  have no := any_eq_false.mp free other listed
  by_contra apart
  exact no (by simp [apart, has])

theorem path_free {cameras : List Camera} {id path : Text} (free : pathTaken cameras id path = false)
    {other : Camera} (listed : other ∈ cameras) (has : other.rtmpIngestPath = some path) :
    other.id = id := by
  have no := any_eq_false.mp free other listed
  by_contra apart
  exact no (by simp [apart, has])

theorem keyed_sound {key : Text} (valid : isValidIngestKey key = true) {camera : Camera}
    (path : ∀ bound ∈ camera.rtmpIngestPath,
      isAcceptableIngestPath bound = true ∧ trim bound = bound) :
    (keyed crypto key camera).Sound crypto :=
  ⟨Or.inr ⟨key, valid, rfl, rfl⟩, path⟩

theorem Sound.create (sound : Sound crypto s) {id key : Text} (unknown : knows s.cameras id = false)
    (valid : isValidIngestKey key = true) (free : hashTaken crypto s.cameras id key = false) :
    Sound crypto { s with cameras := s.cameras ++ [keyed crypto key (newCamera id)] } := by
  apply sound.add (keyed crypto key (newCamera id)) unknown
  · apply keyed_sound valid
    intro bound isBound
    cases isBound
  · intro hash has other listed same
    cases has
    have named := hash_free free listed same
    exact any_eq_false.mp unknown other listed (decide_eq_true named)
  · rfl

theorem Sound.rotate (sound : Sound crypto s) {id key : Text}
    (valid : isValidIngestKey key = true) (free : hashTaken crypto s.cameras id key = false) :
    Sound crypto { s with cameras := updateAt Camera.id s.cameras id (keyed crypto key) } := by
  apply sound.change id (keyed crypto key) (fun _ => rfl)
  · intro camera listed _
    exact keyed_sound valid (sound.cameras camera listed).path
  · intro camera _ _ hash has other listed same
    cases has
    exact hash_free free listed same
  · intro camera listed named path has other here same
    rw [← named]
    exact (sound.paths camera listed other here path has same).symm

theorem Sound.keep (sound : Sound crypto s) (id : Text) (change : Camera → Camera)
    (sameId : ∀ camera, (change camera).id = camera.id)
    (key : ∀ camera, (change camera).rtmpIngestKeyHash = camera.rtmpIngestKeyHash ∧
      (change camera).rtmpIngestKeyEncrypted = camera.rtmpIngestKeyEncrypted)
    (path : ∀ camera ∈ s.cameras, camera.id = id → ∀ bound ∈ (change camera).rtmpIngestPath,
      bound ∈ camera.rtmpIngestPath ∨ pathTaken s.cameras id bound = false ∧
      isAcceptableIngestPath bound = true ∧ trim bound = bound) :
    Sound crypto { s with cameras := updateAt Camera.id s.cameras id change } := by
  apply sound.change id change sameId
  · intro camera listed named
    constructor
    · rw [(key camera).1, (key camera).2]
      exact (sound.cameras camera listed).key
    · intro bound isBound
      rcases path camera listed named bound isBound with old | ⟨-, good⟩
      · exact (sound.cameras camera listed).path bound old
      · exact good
  · intro camera listed named hash has other here same
    rw [(key camera).1] at has
    rw [← named]
    exact (sound.hashes camera listed other here hash has same).symm
  · intro camera listed named bound isBound other here same
    rcases path camera listed named bound isBound with old | ⟨free, -⟩
    · rw [← named]
      exact (sound.paths camera listed other here bound old same).symm
    · exact path_free free here same

theorem Sound.step (sound : Sound crypto s) (a : Step) (taken : step crypto s a = some t) :
    Sound crypto t := by
  cases a with
  | createPull id =>
    simp only [PublishGate.step] at taken
    split at taken
    · cases taken
    · rename_i unknown
      cases taken
      apply sound.add (newCamera id) (Bool.eq_false_of_not_eq_true unknown)
      · refine ⟨Or.inl ⟨rfl, rfl⟩, ?_⟩
        intro bound isBound
        cases isBound
      · intro hash has
        cases has
      · rfl
  | createPushSourcedCamera id key =>
    simp only [PublishGate.step] at taken
    split at taken
    · cases taken
    · rename_i proper
      simp only [Bool.or_eq_true, Bool.not_eq_true', not_or, Bool.not_eq_true,
        Bool.not_eq_false] at proper
      split at taken
      · cases taken
        exact sound
      · rename_i free
        cases taken
        exact (sound.create proper.1 proper.2 (Bool.eq_false_of_not_eq_true free)).reissue _
  | rotateRtmpIngestKey id key =>
    simp only [PublishGate.step] at taken
    split at taken
    · cases taken
    · rename_i valid
      rw [Bool.not_eq_true', Bool.not_eq_false] at valid
      split at taken
      · cases taken
        exact sound
      · rename_i free
        cases taken
        rw [Bool.or_eq_true, not_or, Bool.not_eq_true, Bool.not_eq_true] at free
        exact (sound.rotate valid free.2).reissue _
  | disableRtmpIngest id =>
    cases taken
    apply sound.change id unkeyed (fun _ => rfl)
    · intro camera _ _
      refine ⟨Or.inl ⟨rfl, rfl⟩, ?_⟩
      intro bound isBound
      cases isBound
    · intro camera _ _ hash has
      cases has
    · intro camera _ _ path has
      cases has
  | setEnabled id enabled =>
    cases taken
    apply sound.keep id (fun camera => { camera with enabled := enabled }) (fun _ => rfl)
      (fun _ => ⟨rfl, rfl⟩)
    intro camera _ _ bound isBound
    exact Or.inl isBound
  | bindRtmpIngestPath id path =>
    simp only [PublishGate.step] at taken
    split at taken
    · cases taken
      exact sound
    · rename_i free
      cases taken
      rw [Bool.or_eq_true, not_or, Bool.not_eq_true', Bool.not_eq_false] at free
      apply sound.rebind
      intro binding listed
      rcases mem_append.mp listed with old | new
      · exact sound.bindings binding old
      · rw [mem_singleton.mp new]
        refine ⟨?_, JsString.trim_trim path⟩
        simpa only [isAcceptableIngestPath, normalizeIngestPath, JsString.trim_trim] using free.1
  | checkFamily index =>
    obtain ⟨binding, located, rfl⟩ := Option.map_eq_some_iff.mp taken
    have here := List.mem_of_getElem? located
    split
    · apply sound.rebind
      intro other listed
      exact sound.bindings other (mem_of_mem_eraseIdx listed)
    · apply sound.rebind
      intro other listed
      rcases mem_or_eq_of_mem_set listed with old | rfl
      · exact sound.bindings other old
      · exact sound.bindings binding here
  | writePath index =>
    obtain ⟨binding, located, done⟩ := Option.bind_eq_some_iff.mp taken
    have here := List.mem_of_getElem? located
    split at done
    · cases done
      have fewer : ∀ other ∈ s.bindings.eraseIdx index,
          isAcceptableIngestPath other.path = true ∧ trim other.path = other.path := by
        intro other listed
        exact sound.bindings other (mem_of_mem_eraseIdx listed)
      split
      · exact sound.rebind _ fewer
      · rename_i free
        have written := sound.keep binding.cameraId (boundTo binding.path) (fun _ => rfl)
          (fun _ => ⟨rfl, rfl⟩)
          (by
            intro camera _ _ bound isBound
            cases isBound
            exact Or.inr ⟨Bool.eq_false_of_not_eq_true free, sound.bindings binding here⟩)
        exact written.rebind _ fewer
    · cases done

theorem sound_reached {steps : List Step}
    (reached : Runs.run (PublishGate.step crypto) .empty steps = some s) : Sound crypto s := by
  have preserves : Runs.Preserves (PublishGate.step crypto) (fun _ _ => True) (Sound crypto) := by
    intro u a v _ holds taken
    exact holds.step a taken
  exact Runs.run_invariant (PublishGate.step crypto) preserves .empty s steps
    (Runs.allowed_always _ _ _) (sound_empty crypto) reached

end SoundSteps

end DracVms.PublishGate
