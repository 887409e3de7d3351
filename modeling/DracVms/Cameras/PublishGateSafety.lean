import DracVms.Cameras.PublishGate

namespace DracVms.PublishGate

open List KeyedList

open Json (Text)
open JsString (trim trim_of_solid)
open KeyedList (lookup updateAt)
open RtmpIngest

/-! Who owns a path. -/

section Owners

variable (crypto : Crypto)

/-- The path carries the key of the camera. -/
def OwnsByKey (camera : Camera) (path : Text) : Prop :=
  ∃ key, ingestKeyFromPathName path = some key ∧
    camera.rtmpIngestKeyHash = some (crypto.hashIngestKey key)

/-- The camera is bound to a profile of the path. -/
def OwnsByPath (camera : Camera) (path : Text) : Prop :=
  isAcceptableIngestPath path = true ∧
    ∃ bound ∈ camera.rtmpIngestPath, bound ∈ ingestProfilePathCandidates path

/-- One of the two gates lets somebody publish at the path. -/
def Accepts (cameras : List Camera) (path : Text) : Prop :=
  (∃ protocol, authorizeMediaMtx crypto cameras protocol path = true) ∨
    ∃ app stream, recordSrsPublishAttempt crypto cameras app stream = true ∧
      path = stripSlashes (trim app) ++ '/' :: stripSlashes (trim stream)

/-- The camera has this key at the moment. -/
def HasKey (cameras : List Camera) (id key : Text) : Prop :=
  ∃ camera ∈ cameras, camera.id = id ∧ camera.rtmpIngestKeyHash = some (crypto.hashIngestKey key)

/-- What holds all along the run of the steps. -/
structure AuthorityKept (steps : List Step) : Prop where
  owned : ∀ n s, Runs.run (step crypto) .empty (steps.take n) = some s → ∀ path,
    Accepts crypto s.cameras path → ∃! camera, camera ∈ s.cameras ∧ camera.isLive = true ∧
      (OwnsByKey crypto camera path ∨ OwnsByPath camera path)
  /-- A key that its camera has no more opens no path. -/
  revoked : ∀ n s, Runs.run (step crypto) .empty (steps.take n) = some s →
    ∀ id key, (id, key) ∈ s.issued → ¬HasKey crypto s.cameras id key →
      ∀ path, ingestKeyFromPathName path = some key → ¬Accepts crypto s.cameras path
  apart : ∀ n s, Runs.run (step crypto) .empty (steps.take n) = some s →
    ∀ a ∈ s.cameras, ∀ b ∈ s.cameras, ∀ path, OwnsByKey crypto a path → OwnsByPath b path → a = b

/-! The condition on the steps. -/

/-- A key that was never drawn before and that no path carries which is bound or about to be, and
whose names do not look like profiles of some equipment. -/
@[mk_iff]
structure Fresh (s : Registry) (key : Text) : Prop where
  undrawn : ∀ entry ∈ s.issued, entry.2 ≠ key
  unbound : ∀ camera ∈ s.cameras, ∀ bound ∈ camera.rtmpIngestPath,
    ingestKeyFromPathName bound ≠ some key
  unnamed : ∀ binding ∈ s.bindings, ingestKeyFromPathName binding.path ≠ some key
  plain : ∀ name ∈ ingestPathNames key, parseVendorProfilePath name = none

/-- Keys are fresh, a key is not changed while its camera is bound to a path that carries it, and
no path is bound that carries a key which was revoked. -/
def Orderly (s : Registry) : Step → Prop
  | .createPushSourcedCamera _ key => Fresh s key
  | .rotateRtmpIngestKey id key => Fresh s key ∧ ∀ camera ∈ s.cameras, camera.id = id →
      ∀ bound ∈ camera.rtmpIngestPath, ∀ current ∈ ingestKeyFromPathName bound,
        camera.rtmpIngestKeyHash ≠ some (crypto.hashIngestKey current)
  | .writePath index => ∀ binding ∈ s.bindings[index]?, ∀ key ∈ ingestKeyFromPathName binding.path,
      ∀ entry ∈ s.issued, entry.2 = key → HasKey crypto s.cameras entry.1 key
  | _ => True

instance (s : Registry) (key : Text) : Decidable (Fresh s key) :=
  decidable_of_iff _ (fresh_iff s key).symm

instance (cameras : List Camera) (id key : Text) : Decidable (HasKey crypto cameras id key) :=
  inferInstanceAs (Decidable (∃ camera ∈ cameras, _))

instance (s : Registry) : ∀ a, Decidable (Orderly crypto s a)
  | .createPushSourcedCamera _ _ => inferInstanceAs (Decidable (Fresh _ _))
  | .rotateRtmpIngestKey _ _ => inferInstanceAs (Decidable (_ ∧ ∀ camera ∈ s.cameras, _))
  | .createPull _ | .disableRtmpIngest _ | .setEnabled _ _ | .bindRtmpIngestPath _ _
  | .checkFamily _ => isTrue trivial
  | .writePath index => inferInstanceAs (Decidable (∀ binding ∈ s.bindings[index]?, _))

end Owners

/-! The names of a key. -/

theorem alphabet_path : ∀ c ∈ hexadecimal.symbols ++ base64url.symbols, isPathChar c = true := by
  apply all_eq_true.mp
  decide

theorem name_trim {path key : Text} (carries : ingestKeyFromPathName path = some key) :
    trim path = path := by
  obtain ⟨valid, listed⟩ := (ingestKeyFromPathName_iff path key).mp carries
  apply trim_of_solid
  intro c inPath
  apply pathChar_solid
  have apps : ∀ d ∈ rtmpIngestApp ++ rtmpIngestCompactApp, d = '/' ∨ isPathChar d = true := by
    have all : (rtmpIngestApp ++ rtmpIngestCompactApp).all
        (fun d => decide (d = '/' ∨ isPathChar d = true)) = true := by decide
    intro d listed
    exact of_decide_eq_true (all_eq_true.mp all d listed)
  rcases mem_append.mp listed with compact | canonical
  · obtain ⟨word, encoded, rfl⟩ := Option.map_eq_some_iff.mp (Option.mem_toList.mp compact)
    rcases mem_append.mp inPath with inApp | inWord
    · exact apps c (mem_append_right _ inApp)
    · right
      exact alphabet_path c (mem_append_right _ ((encodeCompact_spells encoded).2 c inWord))
  · rw [mem_singleton.mp canonical] at inPath
    rcases mem_append.mp inPath with inApp | inKey
    · exact apps c (mem_append_left _ inApp)
    · right
      exact alphabet_path c (mem_append_left _ (((valid_iff key).mp valid).2 c inKey))

theorem carried_valid {path key : Text} (carries : ingestKeyFromPathName path = some key) :
    isValidIngestKey key = true := ((ingestKeyFromPathName_iff path key).mp carries).1

/-! What is known in every state, where the steps are orderly. -/

section Known

variable (crypto : Crypto)

structure Known (s : Registry) : Prop where
  distinct : (s.cameras.map Camera.id).Nodup
  /-- No key was drawn twice. -/
  once : (s.issued.map Prod.snd).Nodup
  valid : ∀ entry ∈ s.issued, isValidIngestKey entry.2 = true
  plain : ∀ entry ∈ s.issued, ∀ name ∈ ingestPathNames entry.2, parseVendorProfilePath name = none
  hashes : ∀ camera ∈ s.cameras, ∀ hash ∈ camera.rtmpIngestKeyHash,
    ∃ key, (camera.id, key) ∈ s.issued ∧ hash = crypto.hashIngestKey key
  /-- Who is bound to a path that carries a key is the only one with that key. -/
  own : ∀ camera ∈ s.cameras, ∀ bound ∈ camera.rtmpIngestPath, ∀ key,
    ingestKeyFromPathName bound = some key → ∀ id, HasKey crypto s.cameras id key → id = camera.id
  ownNext : ∀ binding ∈ s.bindings, ∀ key, ingestKeyFromPathName binding.path = some key →
    ∀ id, HasKey crypto s.cameras id key → id = binding.cameraId
  current : ∀ camera ∈ s.cameras, ∀ bound ∈ camera.rtmpIngestPath, ∀ id key,
    ingestKeyFromPathName bound = some key → (id, key) ∈ s.issued → HasKey crypto s.cameras id key

theorem known_empty : Known crypto Registry.empty := by
  constructor
  · exact nodup_nil
  · exact nodup_nil
  all_goals
    intro _ listed
    cases listed

end Known

section Facts

variable {crypto : Crypto} {s : Registry}

theorem Known.holder (known : Known crypto s) {id owner key : Text} (issued : (id, key) ∈ s.issued)
    (has : HasKey crypto s.cameras owner key) : owner = id := by
  obtain ⟨camera, listed, rfl, hash⟩ := has
  obtain ⟨other, given, same⟩ := known.hashes camera listed _ hash
  have equal := crypto.distinct key other (known.valid _ issued) (known.valid _ given) same
  subst equal
  have entry := eq_of_key known.once given issued rfl
  exact congrArg Prod.fst entry

variable {path : Text} {camera : Camera}

theorem Known.issued_of_carried (known : Known crypto s) (listed : camera ∈ s.cameras)
    (owns : OwnsByKey crypto camera path) :
    ∃ key, ingestKeyFromPathName path = some key ∧ (camera.id, key) ∈ s.issued ∧
      HasKey crypto s.cameras camera.id key := by
  obtain ⟨key, carries, hash⟩ := owns
  obtain ⟨other, given, same⟩ := known.hashes camera listed _ hash
  have equal := crypto.distinct key other (carried_valid carries) (known.valid _ given) same
  subst equal
  exact ⟨key, carries, given, camera, listed, rfl, hash⟩

theorem Known.bound_here (known : Known crypto s) {id key path bound : Text}
    (issued : (id, key) ∈ s.issued) (carries : ingestKeyFromPathName path = some key)
    (candidate : bound ∈ ingestProfilePathCandidates path) : bound = path := by
  have listed := ((ingestKeyFromPathName_iff path key).mp carries).2
  have plain := known.plain _ issued path listed
  rw [candidates_plain plain, name_trim carries] at candidate
  exact mem_singleton.mp candidate

theorem Known.apart (known : Known crypto s) {a b : Camera} (first : a ∈ s.cameras)
    (second : b ∈ s.cameras) (byKey : OwnsByKey crypto a path) (byPath : OwnsByPath b path) :
    a = b := by
  obtain ⟨key, carries, issued, has⟩ := known.issued_of_carried first byKey
  obtain ⟨-, bound, isBound, candidate⟩ := byPath
  have here := known.bound_here issued carries candidate
  subst here
  exact eq_of_key known.distinct first second
    (known.own b second bound isBound key carries _ has)

variable {cameras : List Camera}

/-- What either query answers. -/
theorem findKey_spec {key : Text} (located : findCameraByIngestKey crypto cameras key = some camera) :
    camera ∈ cameras ∧ camera.isLive = true ∧
      camera.rtmpIngestKeyHash = some (crypto.hashIngestKey key) := by
  unfold findCameraByIngestKey at located
  split at located
  · obtain ⟨found, live⟩ := Option.filter_eq_some_iff.mp located
    have named := List.find?_some found
    exact ⟨List.mem_of_find?_eq_some found, live, of_decide_eq_true named⟩
  · cases located

theorem findPath_spec (located : findCameraByIngestPath cameras path = some camera) :
    camera ∈ cameras ∧ camera.isLive = true ∧ OwnsByPath camera path ∧
      ∀ other ∈ cameras, OwnsByPath other path → other = camera := by
  unfold findCameraByIngestPath at located
  split at located
  · rename_i acceptable
    dsimp only at located
    split at located
    · rename_i only taken
      split at located
      · rename_i live
        cases located
        have few : cameras.filter (fun camera => camera.rtmpIngestPath.any fun bound =>
            bound ∈ ingestProfilePathCandidates (normalizeIngestPath path)) = [camera] := by
          generalize chosen : cameras.filter (fun camera => camera.rtmpIngestPath.any fun bound =>
            bound ∈ ingestProfilePathCandidates (normalizeIngestPath path)) = list at taken
          match list, taken with
          | [one], taken => exact taken
        have rule : ∀ other, other ∈ cameras ∧ OwnsByPath other path ↔ other = camera := by
          intro other
          rw [← mem_singleton, ← few, mem_filter, Option.any_eq_true]
          simp only [OwnsByPath, acceptable, true_and, decide_eq_true_eq, normalizeIngestPath,
            candidates_trim, Option.mem_def]
        obtain ⟨listed, owns⟩ := (rule camera).mpr rfl
        exact ⟨listed, live, owns, fun other here owned => (rule other).mp ⟨here, owned⟩⟩
      · cases located
    · cases located
  · cases located

theorem publisherOf_spec (located : publisherOf crypto cameras path = some camera) :
    (∃ key, ingestKeyFromPathName path = some key ∧
      findCameraByIngestKey crypto cameras key = some camera) ∨
      findCameraByIngestPath cameras path = some camera := by
  unfold publisherOf at located
  split at located
  · rename_i key carries
    rcases Option.or_eq_some_iff.mp located with byKey | ⟨-, byPath⟩
    · exact Or.inl ⟨key, carries, byKey⟩
    · exact Or.inr byPath
  · exact Or.inr located

theorem accepts_publisher (accepts : Accepts crypto cameras path) :
    ∃ camera, publisherOf crypto cameras path = some camera := by
  rcases accepts with ⟨protocol, allowed⟩ | ⟨app, stream, allowed, rfl⟩
  · simp only [authorizeMediaMtx, Bool.and_eq_true] at allowed
    exact Option.isSome_iff_exists.mp allowed.2
  · simp only [recordSrsPublishAttempt, Bool.and_eq_true] at allowed
    exact Option.isSome_iff_exists.mp allowed.2

theorem Known.owned (known : Known crypto s) (accepts : Accepts crypto s.cameras path) :
    ∃! camera, camera ∈ s.cameras ∧ camera.isLive = true ∧
      (OwnsByKey crypto camera path ∨ OwnsByPath camera path) := by
  obtain ⟨camera, located⟩ := accepts_publisher accepts
  rcases publisherOf_spec located with ⟨key, carries, byKey⟩ | byPath
  · obtain ⟨listed, live, hash⟩ := findKey_spec byKey
    refine ⟨camera, ⟨listed, live, Or.inl ⟨key, carries, hash⟩⟩, ?_⟩
    rintro other ⟨here, -, ownsByKey | ownsByPath⟩
    · obtain ⟨key', carries', issued, has⟩ := known.issued_of_carried here ownsByKey
      have same : key' = key := Option.some.inj (carries'.symm.trans carries)
      subst same
      have holder := known.holder issued ⟨camera, listed, rfl, hash⟩
      exact eq_of_key known.distinct here listed holder.symm
    · exact (known.apart listed here ⟨key, carries, hash⟩ ownsByPath).symm
  · obtain ⟨listed, live, owns, only⟩ := findPath_spec byPath
    refine ⟨camera, ⟨listed, live, Or.inr owns⟩, ?_⟩
    rintro other ⟨here, -, ownsByKey | ownsByPath⟩
    · exact known.apart here listed ownsByKey owns
    · exact only other here ownsByPath

theorem Known.revoked (known : Known crypto s) {id key path : Text} (issued : (id, key) ∈ s.issued)
    (gone : ¬HasKey crypto s.cameras id key) (carries : ingestKeyFromPathName path = some key) :
    ¬Accepts crypto s.cameras path := by
  intro accepts
  obtain ⟨camera, located⟩ := accepts_publisher accepts
  rcases publisherOf_spec located with ⟨other, carries', byKey⟩ | byPath
  · have same : other = key := Option.some.inj (carries'.symm.trans carries)
    subst same
    obtain ⟨listed, -, hash⟩ := findKey_spec byKey
    have has : HasKey crypto s.cameras camera.id other := ⟨camera, listed, rfl, hash⟩
    rw [known.holder issued has] at has
    exact gone has
  · obtain ⟨listed, -, ⟨-, bound, isBound, candidate⟩, -⟩ := findPath_spec byPath
    have here := known.bound_here issued carries candidate
    subst here
    exact gone (known.current camera listed bound isBound id key carries issued)

end Facts

/-! What one step may do. -/

section Evolution

variable {crypto : Crypto}

/-- At most one key is drawn, and a path comes to a camera from a binding under way. -/
structure Evolves (crypto : Crypto) (drawn : Option (Text × Text)) (s t : Registry) : Prop where
  issued : t.issued = drawn.toList ++ s.issued
  distinct : (t.cameras.map Camera.id).Nodup
  keys : ∀ camera ∈ t.cameras, ∀ hash ∈ camera.rtmpIngestKeyHash,
    (∃ old ∈ s.cameras, old.id = camera.id ∧ old.rtmpIngestKeyHash = some hash) ∨
      ∃ key, drawn = some (camera.id, key) ∧ hash = crypto.hashIngestKey key
  paths : ∀ camera ∈ t.cameras, ∀ bound ∈ camera.rtmpIngestPath,
    (∃ old ∈ s.cameras, old.id = camera.id ∧ old.rtmpIngestPath = some bound) ∨
      ∃ binding ∈ s.bindings, binding.cameraId = camera.id ∧ binding.path = bound ∧
        ∀ id key, ingestKeyFromPathName bound = some key → (id, key) ∈ s.issued →
          HasKey crypto s.cameras id key
  names : ∀ binding ∈ t.bindings,
    (∃ old ∈ s.bindings, old.cameraId = binding.cameraId ∧ old.path = binding.path) ∨
      drawn = none ∧ ∀ key, ingestKeyFromPathName binding.path = some key →
        ∀ id, HasKey crypto s.cameras id key → id = binding.cameraId
  kept : ∀ camera ∈ t.cameras, ∀ bound ∈ camera.rtmpIngestPath, ∀ id key,
    ingestKeyFromPathName bound = some key → HasKey crypto s.cameras id key →
      HasKey crypto t.cameras id key

variable {s t : Registry} {drawn : Option (Text × Text)}

theorem Evolves.hasKey (evolves : Evolves crypto drawn s t)
    (valid : ∀ entry ∈ drawn, isValidIngestKey entry.2 = true) {id key : Text}
    (good : isValidIngestKey key = true) (has : HasKey crypto t.cameras id key) :
    HasKey crypto s.cameras id key ∨ drawn = some (id, key) := by
  obtain ⟨camera, listed, rfl, hash⟩ := has
  rcases evolves.keys camera listed _ hash with ⟨old, here, same, before⟩ | ⟨other, new, same⟩
  · exact Or.inl ⟨old, here, same, before⟩
  · have equal := crypto.distinct key other good (valid _ new) same
    subst equal
    exact Or.inr new

theorem Evolves.unbound (evolves : Evolves crypto drawn s t)
    (fresh : ∀ entry ∈ drawn, Fresh s entry.2) {camera : Camera} (listed : camera ∈ t.cameras)
    {bound key id : Text} (isBound : bound ∈ camera.rtmpIngestPath)
    (carries : ingestKeyFromPathName bound = some key) : drawn ≠ some (id, key) := by
  intro new
  have unused := fresh _ new
  rcases evolves.paths camera listed bound isBound with
    ⟨old, here, -, before⟩ | ⟨binding, here, -, same, -⟩
  · exact unused.unbound old here bound before carries
  · subst same
    exact unused.unnamed binding here carries

theorem Known.evolves (known : Known crypto s) (drawn : Option (Text × Text))
    (valid : ∀ entry ∈ drawn, isValidIngestKey entry.2 = true)
    (fresh : ∀ entry ∈ drawn, Fresh s entry.2) (evolves : Evolves crypto drawn s t) :
    Known crypto t := by
  have issued : ∀ entry, entry ∈ t.issued → drawn = some entry ∨ entry ∈ s.issued := by
    intro entry listed
    rw [evolves.issued] at listed
    rcases mem_append.mp listed with new | old
    · exact Or.inl (Option.mem_toList.mp new)
    · exact Or.inr old
  have older : ∀ entry, entry ∈ s.issued → entry ∈ t.issued := by
    intro entry listed
    rw [evolves.issued]
    exact mem_append_right _ listed
  constructor
  case distinct => exact evolves.distinct
  case once =>
    rw [evolves.issued]
    cases drawn with
    | none => exact known.once
    | some entry =>
      apply nodup_cons.mpr
      refine ⟨?_, known.once⟩
      intro again
      obtain ⟨other, listed, same⟩ := mem_map.mp again
      exact (fresh entry rfl).undrawn other listed same
  case valid =>
    intro entry listed
    rcases issued entry listed with new | old
    · exact valid entry new
    · exact known.valid entry old
  case plain =>
    intro entry listed
    rcases issued entry listed with new | old
    · exact (fresh entry new).plain
    · exact known.plain entry old
  case hashes =>
    intro camera listed hash has
    rcases evolves.keys camera listed hash has with ⟨old, here, same, before⟩ | ⟨key, new, same⟩
    · obtain ⟨key, given, equal⟩ := known.hashes old here hash before
      rw [same] at given
      exact ⟨key, older _ given, equal⟩
    · refine ⟨key, ?_, same⟩
      rw [evolves.issued]
      exact mem_append_left _ (Option.mem_toList.mpr new)
  case own =>
    intro camera listed bound isBound key carries id has
    rcases evolves.hasKey valid (carried_valid carries) has with before | new
    · rcases evolves.paths camera listed bound isBound with
        ⟨old, here, same, oldBound⟩ | ⟨binding, here, same, path, -⟩
      · exact (known.own old here bound oldBound key carries id before).trans same
      · rw [← path] at carries
        exact (known.ownNext binding here key carries id before).trans same
    · exact absurd new (evolves.unbound fresh listed isBound carries)
  case ownNext =>
    intro binding listed key carries id has
    rcases evolves.hasKey valid (carried_valid carries) has with before | new
    · rcases evolves.names binding listed with ⟨old, here, same, path⟩ | ⟨-, alone⟩
      · rw [← path] at carries
        exact (known.ownNext old here key carries id before).trans same
      · exact alone key carries id before
    · rcases evolves.names binding listed with ⟨old, here, same, path⟩ | ⟨nothing, -⟩
      · rw [← path] at carries
        exact absurd carries ((fresh _ new).unnamed old here)
      · rw [nothing] at new
        cases new
  case current =>
    intro camera listed bound isBound id key carries given
    have before : HasKey crypto s.cameras id key := by
      rcases issued _ given with new | old
      · exact absurd new (evolves.unbound fresh listed isBound carries)
      · rcases evolves.paths camera listed bound isBound with
          ⟨first, here, -, oldBound⟩ | ⟨binding, -, -, -, current⟩
        · exact known.current first here bound oldBound id key carries old
        · exact current id key carries old
    exact evolves.kept camera listed bound isBound id key carries before

end Evolution

/-! The steps. -/

section Steps

variable {crypto : Crypto} {s t : Registry}

theorem updateAt_ids (cameras : List Camera) (id : Text) (change : Camera → Camera)
    (keeps : ∀ camera, (change camera).id = camera.id) :
    (updateAt Camera.id cameras id change).map Camera.id = cameras.map Camera.id :=
  map_updateAt Camera.id cameras id change Camera.id keeps

theorem changed_mem {cameras : List Camera} (id : Text) (change : Camera → Camera)
    {camera : Camera} (listed : camera ∈ cameras) (other : camera.id ≠ id) :
    camera ∈ updateAt Camera.id cameras id change := by
  apply mem_map.mpr
  exact ⟨camera, listed, if_neg other⟩

theorem added_distinct {cameras : List Camera} {camera : Camera}
    (distinct : (cameras.map Camera.id).Nodup) (unknown : knows cameras camera.id = false) :
    ((cameras ++ [camera]).map Camera.id).Nodup := by
  rw [map_append]
  apply nodup_append.mpr
  refine ⟨distinct, nodup_singleton _, ?_⟩
  intro first here second new same
  obtain ⟨old, listed, rfl⟩ := mem_map.mp here
  rw [map_singleton, mem_singleton] at new
  have no := any_eq_false.mp unknown old listed
  exact no (decide_eq_true (same.trans new))

section

variable (known : Known crypto s)

include known

/-- What every step leaves alone unless it says otherwise. -/
theorem Known.evolves_same {bindings : List Binding}
    (names : ∀ binding ∈ bindings, (∃ old ∈ s.bindings, old.cameraId = binding.cameraId ∧
      old.path = binding.path) ∨ ∀ key, ingestKeyFromPathName binding.path = some key → ∀ id,
      HasKey crypto s.cameras id key → id = binding.cameraId) :
    Known crypto { s with bindings := bindings } := by
  apply known.evolves none
  · intro entry nothing
    cases nothing
  · intro entry nothing
    cases nothing
  constructor
  case issued => rfl
  case distinct => exact known.distinct
  case keys =>
    intro camera listed hash has
    exact Or.inl ⟨camera, listed, rfl, has⟩
  case paths =>
    intro camera listed bound isBound
    exact Or.inl ⟨camera, listed, rfl, isBound⟩
  case names =>
    intro binding listed
    rcases names binding listed with old | alone
    · exact Or.inl old
    · exact Or.inr ⟨rfl, alone⟩
  case kept =>
    intro _ _ _ _ _ _ _ has
    exact has

theorem Known.evolves_change (id : Text) (change : Camera → Camera)
    (sameId : ∀ camera, (change camera).id = camera.id)
    (fewerPaths : ∀ camera, ∀ bound ∈ (change camera).rtmpIngestPath, bound ∈ camera.rtmpIngestPath)
    (sameKey : ∀ camera, (change camera).rtmpIngestKeyHash = camera.rtmpIngestKeyHash ∨
      (change camera).rtmpIngestKeyHash = none ∧ (change camera).rtmpIngestPath = none) :
    Known crypto { s with cameras := updateAt Camera.id s.cameras id change } := by
  apply known.evolves none
  · intro entry nothing
    cases nothing
  · intro entry nothing
    cases nothing
  constructor
  case issued => rfl
  case distinct =>
    rw [updateAt_ids s.cameras id change sameId]
    exact known.distinct
  case keys =>
    intro camera listed hash has
    left
    obtain ⟨old, here, ⟨-, rfl⟩ | ⟨-, rfl⟩⟩ := of_mem_updateAt listed
    · exact ⟨camera, here, rfl, has⟩
    · rcases sameKey old with same | ⟨gone, -⟩
      · exact ⟨old, here, (sameId old).symm, same.symm.trans has⟩
      · rw [gone] at has
        cases has
  case paths =>
    intro camera listed bound isBound
    left
    obtain ⟨old, here, ⟨-, rfl⟩ | ⟨-, rfl⟩⟩ := of_mem_updateAt listed
    · exact ⟨camera, here, rfl, isBound⟩
    · exact ⟨old, here, (sameId old).symm, fewerPaths old bound isBound⟩
  case names =>
    intro binding listed
    exact Or.inl ⟨binding, listed, rfl, rfl⟩
  case kept =>
    intro camera listed bound isBound other key carries has
    obtain ⟨holder, there, rfl, hash⟩ := has
    by_cases same : holder.id = id
    · obtain ⟨old, here, was⟩ := of_mem_updateAt listed
      have wasBound : bound ∈ old.rtmpIngestPath := by
        rcases was with ⟨-, rfl⟩ | ⟨-, rfl⟩
        · exact isBound
        · exact fewerPaths old bound isBound
      have owner := known.own old here bound wasBound key carries holder.id
        ⟨holder, there, rfl, hash⟩
      have equal := eq_of_key known.distinct there here owner
      subst equal
      rcases was with ⟨other, -⟩ | ⟨-, rfl⟩
      · exact absurd same other
      · rcases sameKey holder with kept | ⟨-, unbound⟩
        · exact ⟨change holder, listed, sameId holder, kept.trans hash⟩
        · rw [unbound] at isBound
          cases isBound
    · exact ⟨holder, changed_mem id change there same, rfl, hash⟩

theorem Known.createPull {id : Text} (unknown : knows s.cameras id = false) :
    Known crypto { s with cameras := s.cameras ++ [newCamera id] } := by
  apply known.evolves none
  · intro entry nothing
    cases nothing
  · intro entry nothing
    cases nothing
  constructor
  case issued => rfl
  case distinct => exact added_distinct known.distinct unknown
  case keys =>
    intro camera listed hash has
    rcases mem_append.mp listed with old | new
    · exact Or.inl ⟨camera, old, rfl, has⟩
    · rw [mem_singleton.mp new] at has
      cases has
  case paths =>
    intro camera listed bound isBound
    rcases mem_append.mp listed with old | new
    · exact Or.inl ⟨camera, old, rfl, isBound⟩
    · rw [mem_singleton.mp new] at isBound
      cases isBound
  case names =>
    intro binding listed
    exact Or.inl ⟨binding, listed, rfl, rfl⟩
  case kept =>
    rintro _ _ _ _ _ _ _ ⟨holder, there, named, hash⟩
    exact ⟨holder, mem_append_left _ there, named, hash⟩

theorem Known.createPush {id key : Text} (unknown : knows s.cameras id = false)
    (valid : isValidIngestKey key = true) (fresh : Fresh s key) : Known crypto { s with
      cameras := s.cameras ++ [keyed crypto key (newCamera id)]
      issued := (id, key) :: s.issued } := by
  apply known.evolves (some (id, key))
  · intro entry same
    cases same
    exact valid
  · intro entry same
    cases same
    exact fresh
  constructor
  case issued => rfl
  case distinct => exact added_distinct known.distinct unknown
  case keys =>
    intro camera listed hash has
    rcases mem_append.mp listed with old | new
    · exact Or.inl ⟨camera, old, rfl, has⟩
    · rw [mem_singleton.mp new] at has ⊢
      cases has
      exact Or.inr ⟨key, rfl, rfl⟩
  case paths =>
    intro camera listed bound isBound
    rcases mem_append.mp listed with old | new
    · exact Or.inl ⟨camera, old, rfl, isBound⟩
    · rw [mem_singleton.mp new] at isBound
      cases isBound
  case names =>
    intro binding listed
    exact Or.inl ⟨binding, listed, rfl, rfl⟩
  case kept =>
    rintro _ _ _ _ _ _ _ ⟨holder, there, named, hash⟩
    exact ⟨holder, mem_append_left _ there, named, hash⟩

theorem Known.rotate {id key : Text} (valid : isValidIngestKey key = true) (fresh : Fresh s key)
    (unused : ∀ camera ∈ s.cameras, camera.id = id → ∀ bound ∈ camera.rtmpIngestPath,
      ∀ current ∈ ingestKeyFromPathName bound, camera.rtmpIngestKeyHash ≠ some
      (crypto.hashIngestKey current)) :
    Known crypto { s with
      cameras := updateAt Camera.id s.cameras id (keyed crypto key)
      issued := (id, key) :: s.issued } := by
  apply known.evolves (some (id, key))
  · intro entry same
    cases same
    exact valid
  · intro entry same
    cases same
    exact fresh
  constructor
  case issued => rfl
  case distinct =>
    rw [updateAt_ids s.cameras id (keyed crypto key) fun _ => rfl]
    exact known.distinct
  case keys =>
    intro camera listed hash has
    obtain ⟨old, here, ⟨-, rfl⟩ | ⟨named, rfl⟩⟩ := of_mem_updateAt listed
    · exact Or.inl ⟨camera, here, rfl, has⟩
    · cases has
      right
      refine ⟨key, ?_, rfl⟩
      show some (id, key) = some (old.id, key)
      rw [named]
  case paths =>
    intro camera listed bound isBound
    left
    obtain ⟨old, here, ⟨-, rfl⟩ | ⟨-, rfl⟩⟩ := of_mem_updateAt listed
    · exact ⟨camera, here, rfl, isBound⟩
    · exact ⟨old, here, rfl, isBound⟩
  case names =>
    intro binding listed
    exact Or.inl ⟨binding, listed, rfl, rfl⟩
  case kept =>
    rintro camera listed bound isBound other current carries ⟨holder, there, rfl, hash⟩
    by_cases same : holder.id = id
    · obtain ⟨old, here, was⟩ := of_mem_updateAt listed
      have wasBound : bound ∈ old.rtmpIngestPath := by
        rcases was with ⟨-, rfl⟩ | ⟨-, rfl⟩
        all_goals exact isBound
      have owner := known.own old here bound wasBound current carries holder.id
        ⟨holder, there, rfl, hash⟩
      have equal := eq_of_key known.distinct there here owner
      subst equal
      exact absurd hash (unused holder there same bound wasBound current carries)
    · exact ⟨holder, changed_mem id _ there same, rfl, hash⟩

theorem Known.write {binding : Binding} (under : binding ∈ s.bindings)
    (current : ∀ id key, ingestKeyFromPathName binding.path = some key → (id, key) ∈ s.issued →
      HasKey crypto s.cameras id key) :
    Known crypto { s with
      cameras := updateAt Camera.id s.cameras binding.cameraId (boundTo binding.path) } := by
  apply known.evolves none
  · intro entry nothing
    cases nothing
  · intro entry nothing
    cases nothing
  constructor
  case issued => rfl
  case distinct =>
    rw [updateAt_ids s.cameras binding.cameraId (boundTo binding.path) fun _ => rfl]
    exact known.distinct
  case keys =>
    intro camera listed hash has
    left
    obtain ⟨old, here, ⟨-, rfl⟩ | ⟨-, rfl⟩⟩ := of_mem_updateAt listed
    · exact ⟨camera, here, rfl, has⟩
    · exact ⟨old, here, rfl, has⟩
  case paths =>
    intro camera listed bound isBound
    obtain ⟨old, here, ⟨-, rfl⟩ | ⟨named, rfl⟩⟩ := of_mem_updateAt listed
    · exact Or.inl ⟨camera, here, rfl, isBound⟩
    · cases isBound
      exact Or.inr ⟨binding, under, named.symm, rfl, current⟩
  case names =>
    intro other listed
    exact Or.inl ⟨other, listed, rfl, rfl⟩
  case kept =>
    rintro _ _ _ _ _ _ _ ⟨holder, there, rfl, hash⟩
    by_cases same : holder.id = binding.cameraId
    · refine ⟨boundTo binding.path holder, ?_, rfl, hash⟩
      exact mem_map.mpr ⟨holder, there, if_pos same⟩
    · exact ⟨holder, changed_mem _ _ there same, rfl, hash⟩

theorem Known.bind {id path : Text} (free : keyElsewhere crypto s.cameras id path = false) :
    Known crypto { s with bindings := s.bindings ++ [⟨id, path, false⟩] } := by
  apply known.evolves_same
  intro binding listed
  rcases mem_append.mp listed with old | new
  · exact Or.inl ⟨binding, old, rfl, rfl⟩
  · right
    rw [mem_singleton.mp new]
    intro key carries owner has
    have alone : (s.cameras.find? fun camera =>
        camera.rtmpIngestKeyHash = some (crypto.hashIngestKey key)).any
          (fun owner => owner.id ≠ id) = false := by
      simpa only [keyElsewhere, carries, Option.any_some] using free
    obtain ⟨camera, here, rfl, hash⟩ := has
    cases found : s.cameras.find? fun camera =>
        camera.rtmpIngestKeyHash = some (crypto.hashIngestKey key) with
    | none => exact absurd (decide_eq_true hash) (List.find?_eq_none.mp found camera here)
    | some first =>
      rw [found, Option.any_some, decide_eq_false_iff_not, not_not] at alone
      have named := List.find?_some found
      have holds := of_decide_eq_true named
      have issuedFirst := known.issued_of_carried (List.mem_of_find?_eq_some found)
        ⟨key, carries, holds⟩
      obtain ⟨other, carries', issued, -⟩ := issuedFirst
      have equal : other = key := Option.some.inj (carries'.symm.trans carries)
      subst equal
      exact (known.holder issued ⟨camera, here, rfl, hash⟩).trans alone

theorem Known.step {a : Step} (orderly : Orderly crypto s a) (taken : step crypto s a = some t) :
    Known crypto t := by
  cases a with
  | createPull id =>
    simp only [PublishGate.step] at taken
    split at taken
    · cases taken
    · rename_i unknown
      cases taken
      exact known.createPull (Bool.eq_false_of_not_eq_true unknown)
  | createPushSourcedCamera id key =>
    simp only [PublishGate.step] at taken
    split at taken
    · cases taken
    · rename_i proper
      simp only [Bool.or_eq_true, Bool.not_eq_true', not_or, Bool.not_eq_true,
        Bool.not_eq_false] at proper
      split at taken
      · cases taken
        exact known
      · cases taken
        exact known.createPush proper.1 proper.2 orderly
  | rotateRtmpIngestKey id key =>
    simp only [PublishGate.step] at taken
    split at taken
    · cases taken
    · rename_i valid
      rw [Bool.not_eq_true', Bool.not_eq_false] at valid
      split at taken
      · cases taken
        exact known
      · cases taken
        exact known.rotate valid orderly.1 orderly.2
  | disableRtmpIngest id =>
    cases taken
    apply known.evolves_change id unkeyed (fun _ => rfl)
    · intro camera bound isBound
      cases isBound
    · intro camera
      exact Or.inr ⟨rfl, rfl⟩
  | setEnabled id enabled =>
    cases taken
    apply known.evolves_change id (fun camera => { camera with enabled := enabled }) (fun _ => rfl)
    · intro camera bound isBound
      exact isBound
    · intro camera
      exact Or.inl rfl
  | bindRtmpIngestPath id path =>
    simp only [PublishGate.step] at taken
    split at taken
    · cases taken
      exact known
    · rename_i free
      cases taken
      rw [Bool.or_eq_true, not_or, Bool.not_eq_true, Bool.not_eq_true] at free
      exact known.bind free.2
  | checkFamily index =>
    obtain ⟨binding, located, rfl⟩ := Option.map_eq_some_iff.mp taken
    have here := List.mem_of_getElem? located
    split
    · apply known.evolves_same
      intro other listed
      exact Or.inl ⟨other, mem_of_mem_eraseIdx listed, rfl, rfl⟩
    · apply known.evolves_same
      intro other listed
      rcases mem_or_eq_of_mem_set listed with old | rfl
      · exact Or.inl ⟨other, old, rfl, rfl⟩
      · exact Or.inl ⟨binding, here, rfl, rfl⟩
  | writePath index =>
    obtain ⟨binding, located, done⟩ := Option.bind_eq_some_iff.mp taken
    have here := List.mem_of_getElem? located
    split at done
    · cases done
      have erased : ∀ cameras, Known crypto { s with cameras := cameras } →
          Known crypto ⟨cameras, s.bindings.eraseIdx index, s.issued⟩ := by
        intro cameras before
        apply before.evolves_same
        intro other listed
        exact Or.inl ⟨other, mem_of_mem_eraseIdx listed, rfl, rfl⟩
      apply erased
      split
      · exact known
      · apply known.write here
        intro id key carries issued
        exact orderly binding located key carries (id, key) issued rfl
    · cases done

end

end Steps

section Runs

/-- All along the runs whose steps are orderly. -/
theorem authority_kept (crypto : Crypto) (steps : List Step)
    (orderly : Runs.Allowed (step crypto) (Orderly crypto) .empty steps) :
    AuthorityKept crypto steps := by
  have preserves : Runs.Preserves (step crypto) (Orderly crypto) (Known crypto) := by
    intro u a v allowedStep holds taken
    exact holds.step allowedStep taken
  have known : ∀ n s, Runs.run (step crypto) .empty (steps.take n) = some s → Known crypto s := by
    intro n s reached
    exact Runs.invariant_along (step crypto) preserves .empty s steps n orderly
      (known_empty crypto) reached
  constructor
  case owned =>
    intro n s reached path accepts
    exact (known n s reached).owned accepts
  case revoked =>
    intro n s reached id key issued gone path carries
    exact (known n s reached).revoked issued gone carries
  case apart =>
    intro n s reached a first b second path byKey byPath
    exact (known n s reached).apart first second byKey byPath

/-! Two cameras at work. -/

def firstKey : Text := "00112233445566778899aabbccddeeff".toList

def secondKey : Text := "ffeeddccbbaa99887766554433221100".toList

/-- The digests of the two keys; the others are marked. -/
def digest (key : Text) : Text :=
  if key = firstKey then
    "5947d7c33d783f94b3b4c1a96ebc8991ed28f1b069b71e03376cba8caa98a720".toList
  else if key = secondKey then
    "5d0b193317e951a7444b9bd4c632e0f1793fcbdfad115ae4caeba4f7ae39cca5".toList
  else '#' :: key

theorem digest_distinct (first second : Text) (same : digest first = digest second) :
    first = second := by
  have marked : ∀ key, key ≠ firstKey → key ≠ secondKey → digest key = '#' :: key := by
    intro key notFirst notSecond
    rw [digest, if_neg notFirst, if_neg notSecond]
  have other : ∀ key word, digest key = '#' :: word → key = word := by
    intro key word spelled
    by_cases isFirst : key = firstKey
    · rw [isFirst] at spelled
      cases spelled
    · by_cases isSecond : key = secondKey
      · rw [isSecond] at spelled
        cases spelled
      · rw [marked key isFirst isSecond] at spelled
        exact (List.cons.inj spelled).2
  by_cases known : second = firstKey ∨ second = secondKey
  · by_cases former : first = firstKey ∨ first = secondKey
    · rcases known with rfl | rfl
      · rcases former with rfl | rfl
        · rfl
        · exact absurd same (by decide)
      · rcases former with rfl | rfl
        · exact absurd same (by decide)
        · rfl
    · rw [not_or] at former
      exact (other second first (same.symm.trans (marked first former.1 former.2))).symm
  · rw [not_or] at known
    exact other first second (same.trans (marked second known.1 known.2))

def exampleCrypto : Crypto where
  hashIngestKey := digest
  encrypt value := "sealed:".toList ++ value
  decrypt value := after "sealed:".toList value
  distinct first second _ _ same := digest_distinct first second same
  opens _ := (after_eq_some _ _ _).mpr rfl
  sealed _ := cons_ne_nil _ _

def registryAfter (steps : List Step) : Registry :=
  (Runs.run (step exampleCrypto) .empty steps).getD .empty

theorem registryAfter_reached {steps : List Step}
    (taken : (Runs.run (step exampleCrypto) .empty steps).isSome = true) :
    Runs.run (step exampleCrypto) .empty steps = some (registryAfter steps) := by
  obtain ⟨s, reached⟩ := Option.isSome_iff_exists.mp taken
  rw [registryAfter, reached]
  rfl

/-- The camera is created, is bound to the path, and changes its key. -/
def bindingRun (path : Text) : List Step :=
  [.createPushSourcedCamera ['a'] firstKey, .bindRtmpIngestPath ['a'] path, .checkFamily 0,
    .writePath 0, .rotateRtmpIngestKey ['a'] secondKey]

theorem serialRun_kept :
    AuthorityKept exampleCrypto (bindingRun "live/liveStream_H3ZL_0_0".toList) :=
  authority_kept exampleCrypto _
    (Runs.allowedBy_allowed (step exampleCrypto) (Orderly exampleCrypto) _ _ (by decide +kernel))

/-- Bound to the path of its own key, the camera is reached there after the key was changed. -/
theorem ownKeyRun_broken : ¬AuthorityKept exampleCrypto (bindingRun (ingestPathName firstKey)) := by
  intro kept
  have reached : Runs.run (step exampleCrypto) .empty
      ((bindingRun (ingestPathName firstKey)).take 5) = some _ :=
    registryAfter_reached (by decide +kernel)
  have accepted : recordSrsPublishAttempt exampleCrypto
      (registryAfter ((bindingRun (ingestPathName firstKey)).take 5)).cameras "drac".toList
        firstKey = true := by decide +kernel
  have issued : (['a'], firstKey) ∈
      (registryAfter ((bindingRun (ingestPathName firstKey)).take 5)).issued := by decide +kernel
  have gone : ¬HasKey exampleCrypto
      (registryAfter ((bindingRun (ingestPathName firstKey)).take 5)).cameras ['a'] firstKey := by
    decide +kernel
  have carries : ingestKeyFromPathName (ingestPathName firstKey) = some firstKey := by
    decide +kernel
  apply kept.revoked 5 _ reached ['a'] firstKey issued gone (ingestPathName firstKey) carries
  exact Or.inr ⟨"drac".toList, firstKey, accepted, by decide +kernel⟩

end Runs

end DracVms.PublishGate
