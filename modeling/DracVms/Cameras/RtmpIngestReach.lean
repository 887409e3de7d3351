import DracVms.Cameras.RtmpIngestSource

namespace DracVms.RtmpIngest

open List

open Json (Text)
open JsString (trim)

/-! Families of paths. -/

theorem key_path_length {path key : Text} (carries : ingestKeyFromPathName path = some key) :
    path.length = 24 ∨ path.length = 37 := by
  obtain ⟨valid, listed⟩ := (ingestKeyFromPathName_iff path key).mp carries
  rcases mem_append.mp listed with compact | canonical
  · left
    obtain ⟨word, encoded, rfl⟩ := Option.map_eq_some_iff.mp (Option.mem_toList.mp compact)
    rw [length_append, (encodeCompact_spells encoded).1]
    rfl
  · right
    rw [mem_singleton.mp canonical, ingestPathName, length_append, ((valid_iff key).mp valid).1]
    rfl

theorem key_names {key : Text} (valid : isValidIngestKey key = true) :
    ∃ first second, ingestKeyFromPathName first = some key ∧
      ingestKeyFromPathName second = some key ∧ first.length ≠ second.length := by
  have encoded : encodeCompactIngestKey key =
      some (base64url.write 22 (hexadecimal.valueOf key * 16)) := if_pos valid
  have compact : compactIngestPathName key =
      some (rtmpIngestCompactApp ++ base64url.write 22 (hexadecimal.valueOf key * 16)) := by
    rw [compactIngestPathName, encoded]
    rfl
  refine ⟨rtmpIngestCompactApp ++ base64url.write 22 (hexadecimal.valueOf key * 16),
    ingestPathName key, ?_, ?_, ?_⟩
  · apply (ingestKeyFromPathName_iff _ _).mpr
    exact ⟨valid, mem_append_left _ (Option.mem_toList.mpr compact)⟩
  · apply (ingestKeyFromPathName_iff _ _).mpr
    exact ⟨valid, mem_append_right _ (mem_singleton_self _)⟩
  · rw [length_append, (encodeCompact_spells encoded).1, ingestPathName, length_append,
      ((valid_iff key).mp valid).1]
    decide

variable {path : Text}

theorem acceptable_short (acceptable : isAcceptableIngestPath path = true) :
    (trim path).length ≤ maxIngestPath := by
  simp only [isAcceptableIngestPath, Bool.and_eq_true, decide_eq_true_eq] at acceptable
  exact acceptable.1.1.2

variable {parsed : VendorProfilePath}

theorem family_path (acceptable : isAcceptableIngestPath path = true)
    (read : parseVendorProfilePath path = some parsed) {j : ℕ} (small : j ≤ maxVendorProfileIndex) :
    isAcceptableIngestPath (parsed.path j) = true ∧ trim (parsed.path j) = parsed.path j ∧
      parseVendorProfilePath (parsed.path j) = some { parsed with profile := j } := by
  obtain ⟨channel, profile, reads⟩ := reads_of_parse read
  have short : (parsed.path j).length ≤ maxIngestPath := by
    rw [path_length parsed small reads.profileSmall]
    exact reads.longer.trans (acceptable_short acceptable)
  obtain ⟨good, reads'⟩ := reads.sibling acceptable (decimalOf_number _) (decimalOf_number j) small
    short
  exact ⟨good, reads'.whole, reads'.parse⟩

theorem indexes_small (read : parseVendorProfilePath path = some parsed) {j : ℕ}
    (listed : j ∈ parsed.indexes) : j ≤ maxVendorProfileIndex := by
  obtain ⟨channel, profile, reads⟩ := reads_of_parse read
  rcases (mem_indexes parsed j).mp listed with rfl | rfl | rfl
  · exact Nat.zero_le _
  · decide
  · exact reads.profileSmall

theorem plain_candidate {path bound : Text} (acceptable : isAcceptableIngestPath path = true)
    (trimmed : trim path = path) (plain : parseVendorProfilePath bound = none)
    (candidate : bound ∈ ingestProfilePathCandidates path) : bound = path := by
  cases read : parseVendorProfilePath path with
  | none =>
    rw [candidates_plain read, trimmed] at candidate
    exact mem_singleton.mp candidate
  | some parsed =>
    rw [candidates_family _ read] at candidate
    obtain ⟨j, listed, rfl⟩ := mem_map.mp candidate
    rw [(family_path acceptable read (indexes_small read listed)).2.2] at plain
    cases plain

theorem family_candidate {path bound : Text} (acceptable : isAcceptableIngestPath path = true)
    (trimmed : trim path = path) (read : parseVendorProfilePath bound = some parsed)
    (candidate : bound ∈ ingestProfilePathCandidates path) : ∃ i ≤ maxVendorProfileIndex,
      parseVendorProfilePath path = some { parsed with profile := i } ∧
      bound = parsed.path parsed.profile ∧
      (parsed.profile = 0 ∨ parsed.profile = 1 ∨ parsed.profile = i) := by
  cases read' : parseVendorProfilePath path with
  | none =>
    rw [candidates_plain read', trimmed] at candidate
    rw [mem_singleton.mp candidate, read'] at read
    cases read
  | some other =>
    rw [candidates_family _ read'] at candidate
    obtain ⟨j, listed, rfl⟩ := mem_map.mp candidate
    have small := indexes_small read' listed
    have same : some { other with profile := j } = some parsed :=
      (family_path acceptable read' small).2.2.symm.trans read
    cases same
    have last : other.profile ∈ other.indexes :=
      (mem_indexes other other.profile).mpr (Or.inr (Or.inr rfl))
    exact ⟨other.profile, indexes_small read' last, rfl, rfl, (mem_indexes other j).mp listed⟩

theorem mem_family (read : parseVendorProfilePath path = some parsed) (bound : Text) :
    bound ∈ ingestProfilePathCandidates path ↔
      bound = parsed.path 0 ∨ bound = parsed.path 1 ∨ bound = parsed.path parsed.profile := by
  rw [candidates_family _ read, mem_map]
  constructor
  · rintro ⟨j, listed, rfl⟩
    rcases (mem_indexes parsed j).mp listed with rfl | rfl | rfl
    · exact Or.inl rfl
    · exact Or.inr (Or.inl rfl)
    · exact Or.inr (Or.inr rfl)
  · rintro (rfl | rfl | rfl)
    · exact ⟨0, (mem_indexes parsed 0).mpr (Or.inl rfl), rfl⟩
    · exact ⟨1, (mem_indexes parsed 1).mpr (Or.inr (Or.inl rfl)), rfl⟩
    · exact ⟨parsed.profile, (mem_indexes parsed _).mpr (Or.inr (Or.inr rfl)), rfl⟩

theorem low_family {bound : Text} (acceptable : isAcceptableIngestPath bound = true)
    (read : parseVendorProfilePath bound = some parsed)
    (low : bound = parsed.path 0 ∨ bound = parsed.path 1) :
    (∀ path, path ∈ ingestProfilePathCandidates bound ↔
      path = parsed.path 0 ∨ path = parsed.path 1) ∧
      ∀ j ≤ maxVendorProfileIndex, (parsed.path j).length = bound.length := by
  have printed : ∃ i ≤ 1, bound = parsed.path i := by
    rcases low with first | second
    · exact ⟨0, Nat.zero_le _, first⟩
    · exact ⟨1, Nat.le_refl _, second⟩
  obtain ⟨i, few, same⟩ := printed
  have small : i ≤ maxVendorProfileIndex := few.trans (by decide)
  have profile : parsed.profile = i := by
    have printed := (family_path acceptable read small).2.2
    rw [← same, read] at printed
    exact congrArg VendorProfilePath.profile (Option.some.inj printed)
  constructor
  · intro path
    rw [mem_family read, profile, ← same]
    rcases low with first | second
    · rw [← first]
      constructor
      · rintro (here | here | here)
        · exact Or.inl here
        · exact Or.inr here
        · exact Or.inl here
      · rintro (here | here)
        · exact Or.inl here
        · exact Or.inr (Or.inl here)
    · rw [← second]
      constructor
      · rintro (here | here | here)
        · exact Or.inl here
        all_goals exact Or.inr here
      · rintro (here | here)
        · exact Or.inl here
        · exact Or.inr (Or.inl here)
  · intro j smallJ
    rw [same]
    exact path_length parsed smallJ small

theorem candidates_even (acceptable : isAcceptableIngestPath path = true) :
    ∃ first ∈ ingestProfilePathCandidates path, trim first = first ∧
      ∀ other ∈ ingestProfilePathCandidates path, other.length = first.length := by
  cases read : parseVendorProfilePath path with
  | none =>
    rw [candidates_plain read]
    refine ⟨trim path, mem_singleton_self _, JsString.trim_trim path, ?_⟩
    intro other listed
    rw [mem_singleton.mp listed]
  | some parsed =>
    have small : 0 ≤ maxVendorProfileIndex := Nat.zero_le _
    refine ⟨parsed.path 0, (mem_family read _).mpr (Or.inl rfl),
      (family_path acceptable read small).2.1, ?_⟩
    intro other listed
    rw [candidates_family _ read] at listed
    obtain ⟨j, here, rfl⟩ := mem_map.mp listed
    exact path_length parsed (indexes_small read here) small

end DracVms.RtmpIngest

namespace DracVms.PublishGate

open Json (Text)
open JsString (trim)
open List RtmpIngest

/-! Who may publish. -/

section Publishers

variable {crypto : Crypto} {s : Registry}

/-- Only this camera is bound to a profile of the path. -/
def Alone (cameras : List Camera) (camera : Camera) (path : Text) : Prop :=
  OwnsByPath camera path ∧ ∀ other ∈ cameras, OwnsByPath other path → other = camera

theorem findKey_iff (sound : Sound crypto s) (key : Text) (camera : Camera) :
    findCameraByIngestKey crypto s.cameras key = some camera ↔
      isValidIngestKey key = true ∧ camera ∈ s.cameras ∧ camera.isLive = true ∧
        camera.rtmpIngestKeyHash = some (crypto.hashIngestKey key) := by
  constructor
  · intro located
    refine ⟨?_, findKey_spec located⟩
    unfold findCameraByIngestKey at located
    split at located
    · assumption
    · cases located
  · rintro ⟨valid, listed, live, hash⟩
    rw [findCameraByIngestKey, if_pos valid]
    cases found : s.cameras.find? fun camera =>
        camera.rtmpIngestKeyHash = some (crypto.hashIngestKey key) with
    | none => exact absurd (decide_eq_true hash) (List.find?_eq_none.mp found camera listed)
    | some first =>
      have named := List.find?_some found
      have same := sound.hashes first (List.mem_of_find?_eq_some found) camera listed _
        (of_decide_eq_true named) hash
      have equal := KeyedList.eq_of_key sound.distinct (List.mem_of_find?_eq_some found) listed same
      rw [equal, Option.filter_some, if_pos live]

theorem findPath_iff (sound : Sound crypto s) (path : Text) (camera : Camera) :
    findCameraByIngestPath s.cameras path = some camera ↔
      camera ∈ s.cameras ∧ camera.isLive = true ∧ Alone s.cameras camera path := by
  constructor
  · intro located
    obtain ⟨listed, live, owns, only⟩ := findPath_spec located
    exact ⟨listed, live, owns, only⟩
  · rintro ⟨listed, live, ⟨acceptable, bound, isBound, candidate⟩, only⟩
    have rule : ∀ other, other ∈ (s.cameras.filter fun camera =>
        camera.rtmpIngestPath.any fun bound =>
          bound ∈ ingestProfilePathCandidates (normalizeIngestPath path)) ↔ other = camera := by
      intro other
      rw [mem_filter, Option.any_eq_true]
      simp only [decide_eq_true_eq, normalizeIngestPath, candidates_trim]
      constructor
      · rintro ⟨here, path', has, profile⟩
        exact only other here ⟨acceptable, path', has, profile⟩
      · rintro rfl
        exact ⟨listed, bound, isBound, candidate⟩
    have few : s.cameras.filter (fun camera => camera.rtmpIngestPath.any fun bound =>
        bound ∈ ingestProfilePathCandidates (normalizeIngestPath path)) = [camera] := by
      have nodup := (List.Nodup.of_map _ sound.distinct).filter fun camera =>
        camera.rtmpIngestPath.any fun bound =>
          bound ∈ ingestProfilePathCandidates (normalizeIngestPath path)
      have perm := (perm_ext_iff_of_nodup nodup (nodup_singleton camera)).mpr
        (by simpa only [mem_singleton] using rule)
      exact perm_singleton.mp perm
    rw [findCameraByIngestPath, if_pos acceptable]
    dsimp only
    rw [few]
    exact if_pos live

theorem publisherOf_iff (sound : Sound crypto s) (path : Text) (camera : Camera) :
    publisherOf crypto s.cameras path = some camera ↔
      camera ∈ s.cameras ∧ camera.isLive = true ∧
        (OwnsByKey crypto camera path ∨ Alone s.cameras camera path ∧
          ∀ other ∈ s.cameras, other.isLive = true → ¬OwnsByKey crypto other path) := by
  unfold publisherOf
  cases carries : ingestKeyFromPathName path with
  | none =>
    have nobody : ∀ other, ¬OwnsByKey crypto other path := by
      rintro other ⟨key, carries', -⟩
      rw [carries] at carries'
      cases carries'
    rw [findPath_iff sound]
    constructor
    · rintro ⟨listed, live, alone⟩
      exact ⟨listed, live, Or.inr ⟨alone, fun other _ _ => nobody other⟩⟩
    · rintro ⟨listed, live, byKey | ⟨alone, -⟩⟩
      · exact absurd byKey (nobody camera)
      · exact ⟨listed, live, alone⟩
  | some key =>
    have owner : ∀ other, OwnsByKey crypto other path ↔
        other.rtmpIngestKeyHash = some (crypto.hashIngestKey key) := by
      intro other
      constructor
      · rintro ⟨key', carries', hash⟩
        rw [carries] at carries'
        cases carries'
        exact hash
      · intro hash
        exact ⟨key, carries, hash⟩
    rw [Option.or_eq_some_iff, findKey_iff sound, findPath_iff sound]
    constructor
    · rintro (⟨-, listed, live, hash⟩ | ⟨none_, listed, live, alone⟩)
      · exact ⟨listed, live, Or.inl ((owner camera).mpr hash)⟩
      · refine ⟨listed, live, Or.inr ⟨alone, ?_⟩⟩
        intro other here otherLive owns
        have located := (findKey_iff sound key other).mpr
          ⟨carried_valid carries, here, otherLive, (owner other).mp owns⟩
        rw [none_] at located
        cases located
    · rintro ⟨listed, live, byKey | ⟨alone, nobody⟩⟩
      · exact Or.inl ⟨carried_valid carries, listed, live, (owner camera).mp byKey⟩
      · right
        refine ⟨?_, listed, live, alone⟩
        cases located : findCameraByIngestKey crypto s.cameras key with
        | none => rfl
        | some other =>
          obtain ⟨-, here, otherLive, hash⟩ := (findKey_iff sound key other).mp located
          exact absurd ((owner other).mpr hash) (nobody other here otherLive)

/-! Where a camera is looked for. -/

variable {camera : Camera}

theorem candidatePaths_bound (good : camera.Sound crypto) {bound : Text}
    (isBound : camera.rtmpIngestPath = some bound) :
    candidatePaths crypto camera = ingestProfilePathCandidates bound := by
  obtain ⟨acceptable, trimmed⟩ := good.path bound isBound
  rw [candidatePaths, isBound, Option.filter_some, if_pos acceptable]
  dsimp only
  rw [normalizeIngestPath, trimmed]

theorem candidatePaths_key {key : Text} (valid : isValidIngestKey key = true)
    (unbound : camera.rtmpIngestPath = none)
    (encrypted : camera.rtmpIngestKeyEncrypted = some (crypto.encrypt key)) :
    candidatePaths crypto camera = ingestPathNames key := by
  have some_ : decide (crypto.encrypt key ≠ []) = true := decide_eq_true (crypto.sealed key)
  rw [candidatePaths, unbound, encrypted, Option.filter_none, Option.filter_some, if_pos some_]
  dsimp only
  rw [crypto.opens]
  exact if_pos valid

theorem candidatePaths_none (unbound : camera.rtmpIngestPath = none)
    (keyless : camera.rtmpIngestKeyEncrypted = none) : candidatePaths crypto camera = [] := by
  rw [candidatePaths, unbound, keyless]
  rfl

theorem not_owns_path (unbound : camera.rtmpIngestPath = none) (path : Text) :
    ¬OwnsByPath camera path := by
  rintro ⟨-, bound, isBound, -⟩
  rw [unbound] at isBound
  cases isBound

theorem not_owns_key (keyless : camera.rtmpIngestKeyHash = none) (path : Text) :
    ¬OwnsByKey crypto camera path := by
  rintro ⟨key, -, hash⟩
  rw [keyless] at hash
  cases hash

theorem long_unkeyed {path : Text} (long : path.length = maxIngestPath) (camera : Camera) :
    ¬OwnsByKey crypto camera path := by
  rintro ⟨key, carries, -⟩
  rcases key_path_length carries with short | short
  all_goals exact absurd (long.symm.trans short) (by decide)

variable {parsed : VendorProfilePath}

theorem owns_family {path : Text} {i : ℕ} (acceptable : isAcceptableIngestPath path = true)
    (read : parseVendorProfilePath path = some { parsed with profile := i }) (camera : Camera) :
    OwnsByPath camera path ↔ ∃ bound ∈ camera.rtmpIngestPath,
      bound = parsed.path 0 ∨ bound = parsed.path 1 ∨ bound = parsed.path i := by
  constructor
  · rintro ⟨-, bound, has, candidate⟩
    exact ⟨bound, has, (mem_family read bound).mp candidate⟩
  · rintro ⟨bound, has, candidate⟩
    exact ⟨acceptable, bound, has, (mem_family read bound).mpr candidate⟩

section Cases

variable (sound : Sound crypto s) {camera : Camera} (listed : camera ∈ s.cameras)

include sound listed

theorem found_by_key {hash : Text} (has : camera.rtmpIngestKeyHash = some hash)
    (unbound : camera.rtmpIngestPath = none) :
    FoundWhereAuthorized crypto s.cameras camera ↔ camera.isLive = true := by
  rcases (sound.cameras camera listed).key with ⟨keyless, -⟩ | ⟨key, valid, hashed, encrypted⟩
  · rw [keyless] at has
    cases has
  · have paths := candidatePaths_key valid unbound encrypted
    constructor
    · intro found
      obtain ⟨name, -, carries, -, -⟩ := key_names valid
      have candidate : name ∈ candidatePaths crypto camera := by
        rw [paths]
        exact ((ingestKeyFromPathName_iff name key).mp carries).2
      have published := (found name (name_trim carries)).mpr candidate
      exact ((publisherOf_iff sound name camera).mp published).2.1
    · intro live path _
      rw [publisherOf_iff sound, paths]
      constructor
      · rintro ⟨-, -, ⟨other, carries, hash'⟩ | ⟨⟨owns, -⟩, -⟩⟩
        · have same := crypto.distinct other key (carried_valid carries) valid
            (Option.some.inj (hash'.symm.trans hashed))
          rw [← same]
          exact ((ingestKeyFromPathName_iff path other).mp carries).2
        · exact absurd owns (not_owns_path unbound path)
      · intro candidate
        have carries := (ingestKeyFromPathName_iff path key).mpr ⟨valid, candidate⟩
        exact ⟨listed, live, Or.inl ⟨key, carries, hashed⟩⟩

theorem not_found_both {hash bound : Text} (has : camera.rtmpIngestKeyHash = some hash)
    (isBound : camera.rtmpIngestPath = some bound) :
    ¬FoundWhereAuthorized crypto s.cameras camera := by
  intro found
  have good := sound.cameras camera listed
  have paths := candidatePaths_bound good isBound
  obtain ⟨acceptable, -⟩ := good.path bound isBound
  rcases good.key with ⟨keyless, -⟩ | ⟨key, valid, hashed, -⟩
  · rw [keyless] at has
    cases has
  · obtain ⟨first, candidate, trimmed, even⟩ := candidates_even acceptable
    have published := (found first trimmed).mpr (by rw [paths]; exact candidate)
    have live := ((publisherOf_iff sound first camera).mp published).2.1
    have named : ∀ name, ingestKeyFromPathName name = some key →
        name.length = first.length := by
      intro name carries
      apply even
      rw [← paths]
      apply (found name (name_trim carries)).mp
      exact (publisherOf_iff sound name camera).mpr ⟨listed, live, Or.inl ⟨key, carries, hashed⟩⟩
    obtain ⟨one, two, carries, carries', apart⟩ := key_names valid
    exact apart ((named one carries).trans (named two carries').symm)

variable {bound : Text}

theorem found_by_path (keyless : camera.rtmpIngestKeyHash = none)
    (isBound : camera.rtmpIngestPath = some bound) (plain : parseVendorProfilePath bound = none) :
    FoundWhereAuthorized crypto s.cameras camera ↔ camera.isLive = true ∧
      ∀ key, ingestKeyFromPathName bound = some key → ∀ other ∈ s.cameras,
        other.isLive = true → other.rtmpIngestKeyHash ≠ some (crypto.hashIngestKey key) := by
  have good := sound.cameras camera listed
  obtain ⟨acceptable, trimmed⟩ := good.path bound isBound
  have paths : candidatePaths crypto camera = [bound] := by
    rw [candidatePaths_bound good isBound, candidates_plain plain, trimmed]
  have alone : Alone s.cameras camera bound := by
    have self : ingestProfilePathCandidates bound = [bound] := by
      rw [candidates_plain plain, trimmed]
    refine ⟨⟨acceptable, bound, isBound, by rw [self]; exact mem_singleton_self _⟩, ?_⟩
    rintro other here ⟨-, path, has, candidate⟩
    rw [self, mem_singleton] at candidate
    subst candidate
    exact KeyedList.eq_of_key sound.distinct here listed
      (sound.paths other here camera listed path has isBound)
  constructor
  · intro found
    have published := (found bound trimmed).mpr (by rw [paths]; exact mem_singleton_self _)
    obtain ⟨-, live, byKey | ⟨-, nobody⟩⟩ := (publisherOf_iff sound bound camera).mp published
    · exact absurd byKey (not_owns_key keyless bound)
    · refine ⟨live, ?_⟩
      intro key carries other here otherLive hash
      exact nobody other here otherLive ⟨key, carries, hash⟩
  · rintro ⟨live, nobody⟩ path pathTrimmed
    rw [publisherOf_iff sound, paths, mem_singleton]
    constructor
    · rintro ⟨-, -, byKey | ⟨⟨⟨acceptable', other, has, candidate⟩, -⟩, -⟩⟩
      · exact absurd byKey (not_owns_key keyless path)
      · have same : other = bound := Option.some.inj (has.symm.trans isBound)
        subst same
        exact (plain_candidate acceptable' pathTrimmed plain candidate).symm
    · rintro rfl
      refine ⟨listed, live, Or.inr ⟨alone, ?_⟩⟩
      rintro other here otherLive ⟨key, carries, hash⟩
      exact nobody key carries other here otherLive hash

theorem family_first (keyless : camera.rtmpIngestKeyHash = none)
    (isBound : camera.rtmpIngestPath = some bound)
    (read : parseVendorProfilePath bound = some parsed)
    (found : FoundWhereAuthorized crypto s.cameras camera) :
    camera.isLive = true ∧ (bound = parsed.path 0 ∨ bound = parsed.path 1) ∧
      ∀ other ∈ s.cameras, other.id ≠ camera.id → ∀ path ∈ other.rtmpIngestPath,
        path ≠ parsed.path 0 ∧ path ≠ parsed.path 1 := by
  have good := sound.cameras camera listed
  obtain ⟨acceptable, -⟩ := good.path bound isBound
  obtain ⟨acceptable0, trimmed0, read0⟩ := family_path acceptable read (Nat.zero_le _)
  have published := (found (parsed.path 0) trimmed0).mpr (by
    rw [candidatePaths_bound good isBound]
    exact (mem_family read _).mpr (Or.inl rfl))
  obtain ⟨-, live, byKey | ⟨⟨owns0, only0⟩, -⟩⟩ := (publisherOf_iff sound _ camera).mp published
  · exact absurd byKey (not_owns_key keyless _)
  refine ⟨live, ?_, ?_⟩
  · obtain ⟨b, has, which⟩ := (owns_family acceptable0 read0 camera).mp owns0
    have same : b = bound := Option.some.inj (has.symm.trans isBound)
    subst same
    rcases which with first | second | third
    · exact Or.inl first
    · exact Or.inr second
    · exact Or.inl third
  · intro other here apart path has
    have foreign : ¬OwnsByPath other (parsed.path 0) := by
      intro owned
      exact apart (congrArg Camera.id (only0 other here owned))
    rw [owns_family acceptable0 read0] at foreign
    constructor
    · intro first
      exact foreign ⟨path, has, Or.inl first⟩
    · intro second
      exact foreign ⟨path, has, Or.inr (Or.inl second)⟩

theorem alone_family {bound path : Text} {i : ℕ} (isBound : camera.rtmpIngestPath = some bound)
    (low : bound = parsed.path 0 ∨ bound = parsed.path 1)
    (others : ∀ other ∈ s.cameras, other.id ≠ camera.id → ∀ path ∈ other.rtmpIngestPath,
      path ≠ parsed.path 0 ∧ path ≠ parsed.path 1)
    (free : ∀ other ∈ s.cameras, other.id ≠ camera.id → other.rtmpIngestPath ≠ some (parsed.path i))
    (acceptable : isAcceptableIngestPath path = true)
    (read : parseVendorProfilePath path = some { parsed with profile := i }) :
    Alone s.cameras camera path := by
  constructor
  · rw [owns_family acceptable read]
    refine ⟨bound, isBound, ?_⟩
    rcases low with first | second
    · exact Or.inl first
    · exact Or.inr (Or.inl second)
  · intro other here owned
    rw [owns_family acceptable read] at owned
    obtain ⟨b, has, which⟩ := owned
    by_contra apart
    have differs : other.id ≠ camera.id := fun same =>
      apart (KeyedList.eq_of_key sound.distinct here listed same)
    obtain ⟨notFirst, notSecond⟩ := others other here differs b has
    rcases which with first | second | third
    · exact notFirst first
    · exact notSecond second
    · subst third
      exact free other here differs has

theorem family_full (isBound : camera.rtmpIngestPath = some bound)
    (read : parseVendorProfilePath bound = some parsed)
    (found : FoundWhereAuthorized crypto s.cameras camera) (live : camera.isLive = true)
    (low : bound = parsed.path 0 ∨ bound = parsed.path 1)
    (others : ∀ other ∈ s.cameras, other.id ≠ camera.id → ∀ path ∈ other.rtmpIngestPath,
      path ≠ parsed.path 0 ∧ path ≠ parsed.path 1) : bound.length = maxIngestPath := by
  have good := sound.cameras camera listed
  obtain ⟨acceptable, trimmed⟩ := good.path bound isBound
  by_contra short
  have below := acceptable_short acceptable
  rw [trimmed] at below
  obtain ⟨channel, word, reads⟩ := reads_of_parse read
  have length0 := (low_family acceptable read low).2 0 (Nat.zero_le _)
  rw [path_spelled, spelled_length] at length0
  have padded := padded_number (decimalOf_number parsed.channel) (maxIngestPath - bound.length)
  generalize zeros : List.replicate (maxIngestPath - bound.length) '0' ++
    decimalOf parsed.channel = channel' at padded
  have long : (spelled parsed.stem channel' (decimalOf 0) parsed.suffix).length =
      maxIngestPath := by
    rw [spelled_length, ← zeros, length_append, length_replicate]
    omega
  obtain ⟨acceptable', reads'⟩ := reads.sibling acceptable padded (decimalOf_number 0)
    (Nat.zero_le _) (Nat.le_of_eq long)
  have alone := alone_family sound listed isBound low others
    (fun other here apart same => (others other here apart _ same).1 rfl) acceptable' reads'.parse
  have published := (publisherOf_iff sound _ camera).mpr
    ⟨listed, live, Or.inr ⟨alone, fun other _ _ => long_unkeyed long other⟩⟩
  have candidate := (found _ reads'.whole).mp published
  rw [candidatePaths_bound good isBound, candidates_family _ read, mem_map] at candidate
  obtain ⟨j, index, same⟩ := candidate
  have equal := congrArg List.length same
  rw [(low_family acceptable read low).2 j (indexes_small read index), long] at equal
  exact short equal

theorem family_taken (isBound : camera.rtmpIngestPath = some bound)
    (read : parseVendorProfilePath bound = some parsed)
    (found : FoundWhereAuthorized crypto s.cameras camera) (live : camera.isLive = true)
    (low : bound = parsed.path 0 ∨ bound = parsed.path 1) (full : bound.length = maxIngestPath)
    (others : ∀ other ∈ s.cameras, other.id ≠ camera.id → ∀ path ∈ other.rtmpIngestPath,
      path ≠ parsed.path 0 ∧ path ≠ parsed.path 1) {j : ℕ} (two : 2 ≤ j)
    (small : j ≤ maxVendorProfileIndex) :
    ∃ other ∈ s.cameras, other.id ≠ camera.id ∧ other.rtmpIngestPath = some (parsed.path j) := by
  have good := sound.cameras camera listed
  obtain ⟨acceptable, -⟩ := good.path bound isBound
  obtain ⟨acceptableJ, trimmedJ, readJ⟩ := family_path acceptable read small
  by_contra none_
  simp only [not_exists, not_and] at none_
  have alone := alone_family sound listed isBound low others none_ acceptableJ readJ
  have long : (parsed.path j).length = maxIngestPath :=
    ((low_family acceptable read low).2 j small).trans full
  have published := (publisherOf_iff sound _ camera).mpr
    ⟨listed, live, Or.inr ⟨alone, fun other _ _ => long_unkeyed long other⟩⟩
  have candidate := (found _ trimmedJ).mp published
  rw [candidatePaths_bound good isBound, (low_family acceptable read low).1] at candidate
  rcases candidate with same | same
  all_goals
    have equal := path_injective parsed same
    omega

theorem found_by_family (keyless : camera.rtmpIngestKeyHash = none)
    (isBound : camera.rtmpIngestPath = some bound)
    (read : parseVendorProfilePath bound = some parsed) :
    FoundWhereAuthorized crypto s.cameras camera ↔ camera.isLive = true ∧
      (bound = parsed.path 0 ∨ bound = parsed.path 1) ∧ bound.length = maxIngestPath ∧
      (∀ other ∈ s.cameras, other.id ≠ camera.id → ∀ path ∈ other.rtmpIngestPath,
        path ≠ parsed.path 0 ∧ path ≠ parsed.path 1) ∧
      ∀ j, 2 ≤ j → j ≤ maxVendorProfileIndex → ∃ other ∈ s.cameras, other.id ≠ camera.id ∧
        other.rtmpIngestPath = some (parsed.path j) := by
  have good := sound.cameras camera listed
  obtain ⟨acceptable, trimmed⟩ := good.path bound isBound
  constructor
  · intro found
    obtain ⟨live, low, others⟩ := family_first sound listed keyless isBound read found
    have full := family_full sound listed isBound read found live low others
    refine ⟨live, low, full, others, ?_⟩
    intro j two small
    exact family_taken sound listed isBound read found live low full others two small
  · rintro ⟨live, low, full, others, taken⟩ path pathTrimmed
    obtain ⟨candidates, printed⟩ := low_family acceptable read low
    rw [publisherOf_iff sound, candidatePaths_bound good isBound, candidates]
    constructor
    · rintro ⟨-, -, byKey | ⟨⟨⟨acceptable', b, has, candidate⟩, only⟩, -⟩⟩
      · exact absurd byKey (not_owns_key keyless path)
      · have same : b = bound := Option.some.inj (has.symm.trans isBound)
        subst same
        obtain ⟨i, small, read', -, -⟩ := family_candidate acceptable' pathTrimmed read candidate
        obtain ⟨channel, word, reads⟩ := reads_of_parse read'
        have isPrinted : path = parsed.path i := by
          have below := acceptable_short acceptable'
          have length : (VendorProfilePath.path { parsed with profile := i } i).length =
              maxIngestPath := (printed i small).trans full
          have whole := reads.printed _ (by rw [length]; exact below)
          rw [pathTrimmed] at whole
          exact whole
        by_cases high : 2 ≤ i
        · obtain ⟨other, here, apart, has'⟩ := taken i high small
          have owned : OwnsByPath other path := by
            rw [owns_family acceptable' read']
            exact ⟨parsed.path i, has', Or.inr (Or.inr rfl)⟩
          exact absurd (congrArg Camera.id (only other here owned)) apart
        · have few : i = 0 ∨ i = 1 := by omega
          rcases few with rfl | rfl
          · exact Or.inl isPrinted
          · exact Or.inr isPrinted
    · intro candidate
      have profile : ∀ i, i ≤ maxVendorProfileIndex → path = parsed.path i →
          (∀ other ∈ s.cameras, other.id ≠ camera.id →
            other.rtmpIngestPath ≠ some (parsed.path i)) →
          OwnsByKey crypto camera path ∨ Alone s.cameras camera path ∧
            ∀ other ∈ s.cameras, other.isLive = true → ¬OwnsByKey crypto other path := by
        intro i small same free
        subst same
        obtain ⟨acceptableI, -, readI⟩ := family_path acceptable read small
        have long : (parsed.path i).length = maxIngestPath := (printed i small).trans full
        exact Or.inr ⟨alone_family sound listed isBound low others free acceptableI readI,
          fun other _ _ => long_unkeyed long other⟩
      refine ⟨listed, live, ?_⟩
      rcases candidate with first | second
      · apply profile 0 (Nat.zero_le _) first
        intro other here apart same
        exact (others other here apart _ same).1 rfl
      · apply profile 1 (by decide) second
        intro other here apart same
        exact (others other here apart _ same).2 rfl

end Cases

end Publishers

/-- In every state, a camera may publish exactly where it is looked for if and only if it can be
found. -/
theorem foundWhereAuthorized_iff (crypto : Crypto) (steps : List Step) (s : Registry)
    (reached : Runs.run (step crypto) .empty steps = some s) (camera : Camera)
    (listed : camera ∈ s.cameras) :
    FoundWhereAuthorized crypto s.cameras camera ↔ Findable crypto s.cameras camera := by
  have sound := sound_reached reached
  unfold Findable
  cases has : camera.rtmpIngestKeyHash with
  | none =>
    cases isBound : camera.rtmpIngestPath with
    | none =>
      refine ⟨fun _ => trivial, ?_⟩
      intro _ path _
      have keyless : camera.rtmpIngestKeyEncrypted = none := by
        rcases (sound.cameras camera listed).key with ⟨-, plain⟩ | ⟨key, -, hashed, -⟩
        · exact plain
        · rw [has] at hashed
          cases hashed
      rw [publisherOf_iff sound, candidatePaths_none isBound keyless]
      constructor
      · rintro ⟨-, -, byKey | ⟨⟨owned, -⟩, -⟩⟩
        · exact absurd byKey (not_owns_key has path)
        · exact absurd owned (not_owns_path isBound path)
      · intro nothing
        cases nothing
    | some bound =>
      dsimp only
      cases read : parseVendorProfilePath bound with
      | none => exact found_by_path sound listed has isBound read
      | some parsed => exact found_by_family sound listed has isBound read
  | some hash =>
    cases isBound : camera.rtmpIngestPath with
    | none => exact found_by_key sound listed has isBound
    | some bound => exact iff_of_false (not_found_both sound listed has isBound) id

/-- A new camera is looked for at the two names of its key. -/
theorem newCamera_found : FoundWhereAuthorized exampleCrypto
    (registryAfter [.createPushSourcedCamera ['a'] firstKey]).cameras
    (keyed exampleCrypto firstKey (newCamera ['a'])) := by
  apply (foundWhereAuthorized_iff exampleCrypto _ _ (registryAfter_reached (by decide +kernel)) _
    (by decide +kernel)).mpr
  show Camera.isLive _ = true
  decide +kernel

/-- The camera is bound to the path of its equipment and then publishes with its key. -/
theorem keyAndPath_apart :
    ¬∀ (steps : List Step) (s : Registry), Runs.run (step exampleCrypto) .empty steps = some s →
      ∀ camera ∈ s.cameras, FoundWhereAuthorized exampleCrypto s.cameras camera := by
  intro always
  have reached : Runs.run (step exampleCrypto) .empty
      ((bindingRun "live/camera7".toList).take 4) = some _ :=
    registryAfter_reached (by decide +kernel)
  have accepted : ∃ camera ∈ (registryAfter ((bindingRun "live/camera7".toList).take 4)).cameras,
      publisherOf exampleCrypto
        (registryAfter ((bindingRun "live/camera7".toList).take 4)).cameras
        (ingestPathName firstKey) = some camera ∧
      ingestPathName firstKey ∉ candidatePaths exampleCrypto camera := by decide +kernel
  obtain ⟨camera, listed, published, absent⟩ := accepted
  have trimmed : trim (ingestPathName firstKey) = ingestPathName firstKey := by decide +kernel
  exact absent ((always _ _ reached camera listed _ trimmed).mp published)

end DracVms.PublishGate
