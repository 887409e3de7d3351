import DracVms.Database.Directory

namespace DracVms.AccessControl

open List

open Json (Text)
open Database

/-- The user of a request, as far as the access rules look at it. -/
structure AuthUser where
  id : Text
  role : UserRole

def levelWeight : CameraPermissionLevel → ℕ
  | .view => 1
  | .control => 2
  | .record => 3
  | .admin => 4

def isPrivileged (user : AuthUser) : Bool := user.role = .superAdmin || user.role = .admin

section Gate

variable (db : Directory)

/-- A suspended group grants nothing, and neither does one that is not active. -/
def filterAllowedGroupIds (groupIds : List Text) : List Text :=
  (db.cameraGroups.filter fun group =>
    group.id ∈ groupIds && group.isActive && group.accessStatus ≠ .suspended).map CameraGroup.id

/-- The highest of the levels. -/
def maxLevel : List CameraPermissionLevel → Option CameraPermissionLevel
  | [] => none
  | first :: rest =>
    some (rest.foldl
      (fun max level => if levelWeight max < levelWeight level then level else max) first)

def getMaxPermissionLevel (userId cameraId : Text) : Option CameraPermissionLevel :=
  (db.cameraAt cameraId).bind fun camera =>
    let allowedGroupIds := match truthy camera.groupId with
      | some groupId => filterAllowedGroupIds db [groupId]
      | none => []
    maxLevel ((db.cameraPermissions.filter fun perm =>
      perm.userId = userId &&
        (perm.cameraId = some cameraId ||
          allowedGroupIds.head?.any fun groupId => perm.groupId = some groupId)).map
      CameraPermission.level)

def hasLevel (user : AuthUser) (cameraId : Text) (minLevel : CameraPermissionLevel) : Bool :=
  isPrivileged user ||
    (getMaxPermissionLevel db user.id cameraId).any fun max =>
      levelWeight minLevel ≤ levelWeight max

/-- For a camera that is not private there is no answer here. -/
def hasPrivateContentLevel (user : AuthUser) (cameraId : Text) (minLevel : CameraPermissionLevel) :
    Option Bool :=
  match db.cameraAt cameraId with
  | none => none
  | some camera =>
    if camera.isPrivate then
      if camera.ownerUserId = some user.id then some true
      else some (db.cameraPermissions.any fun perm =>
        perm.userId = user.id && perm.cameraId = some cameraId &&
          levelWeight minLevel ≤ levelWeight perm.level)
    else none

/-- The one gate of the content of a camera. -/
def canViewCamera (user : AuthUser) (cameraId : Text) : Bool :=
  (hasPrivateContentLevel db user cameraId .view).getD (hasLevel db user cameraId .view)

/-- The gate of its movements and relays. -/
def canControlCamera (user : AuthUser) (cameraId : Text) : Bool :=
  (hasPrivateContentLevel db user cameraId .control).getD (hasLevel db user cameraId .control)

/-- The gate of its history: a restricted group keeps the live view only. -/
def canPlaybackCamera (user : AuthUser) (cameraId : Text) : Bool :=
  canViewCamera db user cameraId &&
    (isPrivileged user ||
      match (db.cameraAt cameraId).bind fun camera => truthy camera.groupId with
      | none => true
      | some groupId =>
        ((db.groupAt groupId).map CameraGroup.accessStatus) ≠ some .restricted)

/-- The cameras that the user has a permission of its own for. -/
def directIds (user : AuthUser) : List Text :=
  (db.cameraPermissions.filter fun perm => perm.userId = user.id).filterMap
    fun perm => truthy perm.cameraId

/-- The private cameras that the user owns or was given. -/
def authorizedPrivateIds (user : AuthUser) : List Text :=
  ((db.cameras.filter fun camera => camera.isPrivate && camera.ownerUserId = some user.id) ++
    db.cameras.filter fun camera => camera.id ∈ directIds db user && camera.isPrivate).map Camera.id

/-- The cameras of the groups that still grant access to the user. -/
def groupCameras (user : AuthUser) : List Camera :=
  let groupIds := (db.cameraPermissions.filter fun perm => perm.userId = user.id).filterMap
    fun perm => truthy perm.groupId
  let allowedGroupIds := filterAllowedGroupIds db groupIds
  db.cameras.filter fun camera => camera.groupId.any fun groupId => groupId ∈ allowedGroupIds

/-- `Array.from(new Set(values))`: the first of each value stays. -/
def unique {Item : Type} [DecidableEq Item] (values : List Item) : List Item :=
  values.reverse.dedup.reverse

/-- The cameras whose content the user may see. -/
def getAccessibleCameraIds (user : AuthUser) : List Text :=
  if isPrivileged user then
    unique ((db.cameras.filter fun camera => !camera.isPrivate).map Camera.id ++
      authorizedPrivateIds db user)
  else
    let candidate := unique (directIds db user ++ (groupCameras db user).map Camera.id)
    let privateSet := ((groupCameras db user).filter Camera.isPrivate).map Camera.id
    candidate.filter fun id => id ∉ privateSet || id ∈ authorizedPrivateIds db user

/-- The cameras whose history the user may see. -/
def getPlaybackCameraIds (user : AuthUser) : List Text :=
  let accessibleIds := getAccessibleCameraIds db user
  if isPrivileged user then accessibleIds
  else
    let cameras := db.cameras.filter fun camera => camera.id ∈ accessibleIds
    let restrictedIds := (db.cameraGroups.filter fun group =>
      group.accessStatus = .restricted).map CameraGroup.id
    (cameras.filter fun camera =>
      (truthy camera.groupId).all fun groupId => groupId ∉ restrictedIds).map Camera.id

/-! What the rules come to. -/

def HasDirect (userId cameraId : Text) : Prop :=
  ∃ perm ∈ db.cameraPermissions, perm.userId = userId ∧ perm.cameraId = some cameraId

def GroupAllowed (groupId : Text) : Prop :=
  ∃ group ∈ db.cameraGroups, group.id = groupId ∧ group.isActive = true ∧
    group.accessStatus ≠ .suspended

/-- A permission for the group of the camera, which may be suspended. -/
def HasGroup (userId : Text) (camera : Camera) : Prop :=
  ∃ groupId, truthy camera.groupId = some groupId ∧
    ∃ perm ∈ db.cameraPermissions, perm.userId = userId ∧ perm.groupId = some groupId

/-- A permission for the group of the camera, and the group still grants access. -/
def GrantedByGroup (userId : Text) (camera : Camera) : Prop :=
  ∃ groupId, truthy camera.groupId = some groupId ∧ GroupAllowed db groupId ∧
    ∃ perm ∈ db.cameraPermissions, perm.userId = userId ∧ perm.groupId = some groupId

/-- The same, of at least this level. -/
def HasDirectLevel (userId cameraId : Text) (minLevel : CameraPermissionLevel) : Prop :=
  ∃ perm ∈ db.cameraPermissions, perm.userId = userId ∧ perm.cameraId = some cameraId ∧
    levelWeight minLevel ≤ levelWeight perm.level

def GrantedLevel (userId : Text) (camera : Camera) (minLevel : CameraPermissionLevel) : Prop :=
  ∃ groupId, truthy camera.groupId = some groupId ∧ GroupAllowed db groupId ∧
    ∃ perm ∈ db.cameraPermissions, perm.userId = userId ∧ perm.groupId = some groupId ∧
      levelWeight minLevel ≤ levelWeight perm.level

theorem mem_filterAllowedGroupIds (groupIds : List Text) (groupId : Text) :
    groupId ∈ filterAllowedGroupIds db groupIds ↔ groupId ∈ groupIds ∧ GroupAllowed db groupId := by
  unfold filterAllowedGroupIds
  simp only [mem_map, mem_filter, Bool.and_eq_true, decide_eq_true_eq]
  constructor
  · rintro ⟨group, ⟨listed, ⟨asked, active⟩, status⟩, rfl⟩
    exact ⟨asked, group, listed, rfl, active, status⟩
  · rintro ⟨asked, group, listed, rfl, active, status⟩
    exact ⟨group, ⟨listed, ⟨asked, active⟩, status⟩, rfl⟩

theorem levelWeight_pos (level : CameraPermissionLevel) :
    levelWeight .view ≤ levelWeight level := by
  cases level <;> decide

theorem levelWeight_foldl (bound : ℕ) (first : CameraPermissionLevel)
    (rest : List CameraPermissionLevel) : bound ≤ levelWeight (rest.foldl
        (fun max level => if levelWeight max < levelWeight level then level else max) first) ↔
      bound ≤ levelWeight first ∨ ∃ level ∈ rest, bound ≤ levelWeight level := by
  induction rest generalizing first with
  | nil => simp
  | cons head rest ih =>
    rw [foldl_cons, ih]
    simp only [mem_cons, exists_eq_or_imp, ← or_assoc]
    apply or_congr_left
    split
    all_goals omega

theorem any_maxLevel (levels : List CameraPermissionLevel) (minLevel : CameraPermissionLevel) :
    (maxLevel levels).any (fun max => levelWeight minLevel ≤ levelWeight max) = true ↔
      ∃ level ∈ levels, levelWeight minLevel ≤ levelWeight level := by
  cases levels with
  | nil => simp [maxLevel]
  | cons first rest =>
    rw [maxLevel, Option.any_some, decide_eq_true_eq, levelWeight_foldl]
    simp only [mem_cons, exists_eq_or_imp]

theorem head_filterAllowedGroupIds (groupId : Text) :
    (filterAllowedGroupIds db [groupId]).head? = some groupId ∧ GroupAllowed db groupId ∨
      (filterAllowedGroupIds db [groupId]).head? = none ∧ ¬GroupAllowed db groupId := by
  have only := mem_filterAllowedGroupIds db [groupId]
  cases found : filterAllowedGroupIds db [groupId] with
  | nil =>
    right
    refine ⟨rfl, ?_⟩
    intro allowed
    have listed := (only groupId).mpr ⟨mem_singleton_self groupId, allowed⟩
    rw [found] at listed
    exact absurd listed not_mem_nil
  | cons first rest =>
    left
    have listed : first ∈ filterAllowedGroupIds db [groupId] := by
      rw [found]
      exact mem_cons_self
    obtain ⟨same, allowed⟩ := (only first).mp listed
    rw [mem_singleton.mp same] at allowed ⊢
    exact ⟨rfl, allowed⟩

theorem hasLevel_iff (user : AuthUser) (camera : Camera) (member : camera ∈ db.cameras)
    (minLevel : CameraPermissionLevel) : hasLevel db user camera.id minLevel = true ↔
      isPrivileged user = true ∨ HasDirectLevel db user.id camera.id minLevel ∨
        GrantedLevel db user.id camera minLevel := by
  unfold hasLevel getMaxPermissionLevel
  rw [Bool.or_eq_true, Directory.cameraAt_mem member]
  dsimp only [Option.bind_some]
  rw [any_maxLevel]
  simp only [mem_map, mem_filter, Bool.and_eq_true, Bool.or_eq_true, decide_eq_true_eq]
  apply or_congr_right
  cases group : truthy camera.groupId with
  | none =>
    have none' : ¬GrantedLevel db user.id camera minLevel := by
      rintro ⟨groupId, given, -⟩
      rw [group] at given
      cases given
    simp [none', HasDirectLevel, and_assoc]
  | some groupId =>
    have granted : GrantedLevel db user.id camera minLevel ↔ GroupAllowed db groupId ∧
        ∃ perm ∈ db.cameraPermissions, perm.userId = user.id ∧ perm.groupId = some groupId ∧
          levelWeight minLevel ≤ levelWeight perm.level := by
      simp [GrantedLevel, group]
    rw [granted]
    rcases head_filterAllowedGroupIds db groupId with ⟨head, allowed⟩ | ⟨head, refused⟩
    · rw [head]
      simp only [Option.any_some, decide_eq_true_eq]
      constructor
      · rintro ⟨level, ⟨perm, ⟨listed, own, direct | byGroup⟩, rfl⟩, reaches⟩
        · exact Or.inl ⟨perm, listed, own, direct, reaches⟩
        · exact Or.inr ⟨allowed, perm, listed, own, byGroup, reaches⟩
      · rintro (⟨perm, listed, own, direct, reaches⟩ | ⟨-, perm, listed, own, byGroup, reaches⟩)
        · exact ⟨perm.level, ⟨perm, ⟨listed, own, Or.inl direct⟩, rfl⟩, reaches⟩
        · exact ⟨perm.level, ⟨perm, ⟨listed, own, Or.inr byGroup⟩, rfl⟩, reaches⟩
    · rw [head]
      simp [refused, HasDirectLevel, and_assoc]

theorem hasDirectLevel_view (userId cameraId : Text) :
    HasDirectLevel db userId cameraId .view ↔ HasDirect db userId cameraId := by
  simp only [HasDirectLevel, HasDirect, levelWeight_pos, and_true]

theorem grantedLevel_view (userId : Text) (camera : Camera) :
    GrantedLevel db userId camera .view ↔ GrantedByGroup db userId camera := by
  simp only [GrantedLevel, GrantedByGroup, levelWeight_pos, and_true]

section

variable (user : AuthUser) (camera : Camera) (member : camera ∈ db.cameras)

include member

theorem hasLevel_view : hasLevel db user camera.id .view = true ↔
      isPrivileged user = true ∨ HasDirect db user.id camera.id ∨
        GrantedByGroup db user.id camera := by
  rw [hasLevel_iff db user camera member, hasDirectLevel_view, grantedLevel_view]

theorem canViewCamera_iff : canViewCamera db user camera.id = true ↔
      if camera.isPrivate then camera.ownerUserId = some user.id ∨ HasDirect db user.id camera.id
      else isPrivileged user = true ∨ HasDirect db user.id camera.id ∨
        GrantedByGroup db user.id camera := by
  unfold canViewCamera hasPrivateContentLevel
  rw [Directory.cameraAt_mem member]
  dsimp only
  split
  · split
    · rename_i owned
      simp [owned]
    · rename_i other
      have weight := levelWeight_pos
      simp [other, HasDirect, weight]
  · exact hasLevel_view db user camera member

theorem canViewCamera_of_control (hidden : camera.isPrivate = true)
    (controls : canControlCamera db user camera.id = true) :
    canViewCamera db user camera.id = true := by
  rw [canViewCamera_iff db user camera member, if_pos hidden]
  unfold canControlCamera hasPrivateContentLevel at controls
  rw [Directory.cameraAt_mem member] at controls
  simp only [hidden, if_true] at controls
  split at controls
  · exact Or.inl ‹_›
  · simp only [Option.getD_some, any_eq_true, Bool.and_eq_true, decide_eq_true_eq] at controls
    obtain ⟨perm, listed, ⟨own, direct⟩, -⟩ := controls
    exact Or.inr ⟨perm, listed, own, direct⟩

end

theorem canViewCamera_missing (user : AuthUser) (cameraId : Text)
    (missing : db.cameraAt cameraId = none) :
    canViewCamera db user cameraId = isPrivileged user := by
  simp [canViewCamera, hasPrivateContentLevel, hasLevel, getMaxPermissionLevel, missing]

theorem mem_unique {Item : Type} [DecidableEq Item] (values : List Item) (value : Item) :
    value ∈ unique values ↔ value ∈ values := by
  simp [unique]

section

variable (user : AuthUser)

theorem mem_directIds (cameraId : Text) :
    cameraId ∈ directIds db user ↔ HasDirect db user.id cameraId ∧ cameraId ≠ [] := by
  unfold directIds truthy HasDirect
  simp only [mem_filterMap, mem_filter, decide_eq_true_eq, Option.filter_eq_some_iff]
  constructor
  · rintro ⟨perm, ⟨listed, own⟩, direct, solid⟩
    exact ⟨⟨perm, listed, own, direct⟩, solid⟩
  · rintro ⟨⟨perm, listed, own, direct⟩, solid⟩
    exact ⟨perm, ⟨listed, own⟩, direct, solid⟩

theorem mem_groupCameras (camera : Camera) :
    camera ∈ groupCameras db user ↔ camera ∈ db.cameras ∧ GrantedByGroup db user.id camera := by
  unfold groupCameras GrantedByGroup truthy
  simp only [mem_filter, Option.any_eq_true, decide_eq_true_eq, mem_filterAllowedGroupIds,
    mem_filterMap, Option.filter_eq_some_iff]
  constructor
  · rintro ⟨listed, groupId, group, ⟨perm, ⟨known, own⟩, byGroup, solid⟩, allowed⟩
    exact ⟨listed, groupId, ⟨group, solid⟩, allowed, perm, known, own, byGroup⟩
  · rintro ⟨listed, groupId, ⟨group, solid⟩, allowed, perm, known, own, byGroup⟩
    exact ⟨listed, groupId, group, ⟨perm, ⟨known, own⟩, byGroup, solid⟩, allowed⟩

theorem mem_authorizedPrivateIds (cameraId : Text) : cameraId ∈ authorizedPrivateIds db user ↔
      ∃ camera ∈ db.cameras, camera.id = cameraId ∧ camera.isPrivate = true ∧
        (camera.ownerUserId = some user.id ∨ camera.id ∈ directIds db user) := by
  unfold authorizedPrivateIds
  simp only [mem_map, mem_append, mem_filter, Bool.and_eq_true, decide_eq_true_eq]
  constructor
  · rintro ⟨camera, ⟨listed, secret, owned⟩ | ⟨listed, given, secret⟩, rfl⟩
    · exact ⟨camera, listed, rfl, secret, Or.inl owned⟩
    · exact ⟨camera, listed, rfl, secret, Or.inr given⟩
  · rintro ⟨camera, listed, rfl, secret, owned | given⟩
    · exact ⟨camera, Or.inl ⟨listed, secret, owned⟩, rfl⟩
    · exact ⟨camera, Or.inr ⟨listed, given, secret⟩, rfl⟩

theorem mem_getAccessibleCameraIds (camera : Camera) (member : camera ∈ db.cameras) :
    camera.id ∈ getAccessibleCameraIds db user ↔
      if isPrivileged user then
        camera.isPrivate = true → camera.ownerUserId = some user.id ∨ HasDirect db user.id camera.id
      else
        HasDirect db user.id camera.id ∨
          GrantedByGroup db user.id camera ∧
            (camera.isPrivate = true → camera.ownerUserId = some user.id) := by
  have solid := db.named camera member
  have only : ∀ other ∈ db.cameras, other.id = camera.id → other = camera :=
    fun other listed same => KeyedList.eq_of_key db.cameraIds listed member same
  have authorized : camera.id ∈ authorizedPrivateIds db user ↔ camera.isPrivate = true ∧
      (camera.ownerUserId = some user.id ∨ HasDirect db user.id camera.id) := by
    rw [mem_authorizedPrivateIds]
    constructor
    · rintro ⟨other, listed, same, secret, so⟩
      obtain rfl := only other listed same
      exact ⟨secret, so.imp_right fun direct => ((mem_directIds db user _).mp direct).1⟩
    · rintro ⟨secret, so⟩
      exact ⟨camera, member, rfl, secret,
        so.imp_right fun direct => (mem_directIds db user _).mpr ⟨direct, solid⟩⟩
  have byGroup : camera.id ∈ (groupCameras db user).map Camera.id ↔
      GrantedByGroup db user.id camera := by
    rw [mem_map]
    constructor
    · rintro ⟨other, listed, same⟩
      obtain ⟨known, granted⟩ := (mem_groupCameras db user other).mp listed
      obtain rfl := only other known same
      exact granted
    · intro granted
      exact ⟨camera, (mem_groupCameras db user camera).mpr ⟨member, granted⟩, rfl⟩
  unfold getAccessibleCameraIds
  split
  · rw [mem_unique, mem_append, authorized]
    have shown : camera.id ∈ (db.cameras.filter fun camera => !camera.isPrivate).map Camera.id ↔
        camera.isPrivate = false := by
      simp only [mem_map, mem_filter, Bool.not_eq_true']
      constructor
      · rintro ⟨other, ⟨listed, shown⟩, same⟩
        obtain rfl := only other listed same
        exact shown
      · intro shown
        exact ⟨camera, ⟨member, shown⟩, rfl⟩
    rw [shown]
    cases camera.isPrivate <;> simp
  · have secret : camera.id ∈ ((groupCameras db user).filter Camera.isPrivate).map Camera.id ↔
        camera.isPrivate = true ∧ GrantedByGroup db user.id camera := by
      simp only [mem_map, mem_filter, mem_groupCameras]
      constructor
      · rintro ⟨other, ⟨⟨listed, granted⟩, secret⟩, same⟩
        obtain rfl := only other listed same
        exact ⟨secret, granted⟩
      · rintro ⟨secret, granted⟩
        exact ⟨camera, ⟨⟨member, granted⟩, secret⟩, rfl⟩
    rw [mem_filter, mem_unique, mem_append, byGroup, mem_directIds, Bool.or_eq_true,
      decide_eq_true_eq, decide_eq_true_eq, secret, authorized]
    constructor
    · rintro ⟨⟨direct, -⟩ | granted, open'⟩
      · exact Or.inl direct
      · rcases open' with open' | ⟨-, owned | direct⟩
        · exact Or.inr ⟨granted, fun hidden => absurd ⟨hidden, granted⟩ open'⟩
        · exact Or.inr ⟨granted, fun _ => owned⟩
        · exact Or.inl direct
    · rintro (direct | ⟨granted, owned⟩)
      · refine ⟨Or.inl ⟨direct, solid⟩, ?_⟩
        by_cases hidden : camera.isPrivate = true
        · exact Or.inr ⟨hidden, Or.inr direct⟩
        · exact Or.inl fun both => hidden both.1
      · refine ⟨Or.inr granted, ?_⟩
        by_cases hidden : camera.isPrivate = true
        · exact Or.inr ⟨hidden, Or.inl (owned hidden)⟩
        · exact Or.inl fun both => hidden both.1

theorem exists_of_accessible (id : Text) (listed : id ∈ getAccessibleCameraIds db user) :
    ∃ camera ∈ db.cameras, camera.id = id := by
  unfold getAccessibleCameraIds at listed
  split at listed
  · rw [mem_unique, mem_append] at listed
    rcases listed with shown | authorized
    · obtain ⟨camera, kept, same⟩ := mem_map.mp shown
      exact ⟨camera, mem_of_mem_filter kept, same⟩
    · obtain ⟨camera, member, same, -⟩ := (mem_authorizedPrivateIds db user id).mp authorized
      exact ⟨camera, member, same⟩
  · have candidate := mem_of_mem_filter listed
    rw [mem_unique, mem_append] at candidate
    rcases candidate with direct | grouped
    · obtain ⟨perm, known, -, named⟩ := ((mem_directIds db user id).mp direct).1
      exact db.permitted perm known id named
    · obtain ⟨camera, kept, same⟩ := mem_map.mp grouped
      exact ⟨camera, ((mem_groupCameras db user camera).mp kept).1, same⟩

theorem canViewCamera_of_accessible (camera : Camera) (member : camera ∈ db.cameras)
    (listed : camera.id ∈ getAccessibleCameraIds db user) :
    canViewCamera db user camera.id = true := by
  rw [mem_getAccessibleCameraIds db user camera member] at listed
  rw [canViewCamera_iff db user camera member]
  split at listed
  · rename_i privileged
    split
    · rename_i secret
      exact listed secret
    · exact Or.inl privileged
  · split
    · rename_i secret
      rcases listed with direct | ⟨-, owned⟩
      · exact Or.inr direct
      · exact Or.inl (owned secret)
    · rcases listed with direct | ⟨granted, -⟩
      · exact Or.inr (Or.inl direct)
      · exact Or.inr (Or.inr granted)

/-- What the list of histories shows is what the gate of the single history lets through. -/
theorem canPlaybackCamera_of_listed (camera : Camera) (member : camera ∈ db.cameras)
    (unprivileged : isPrivileged user = false) (listed : camera.id ∈ getPlaybackCameraIds db user) :
    canPlaybackCamera db user camera.id = true := by
  unfold getPlaybackCameraIds at listed
  rw [if_neg (by simp [unprivileged])] at listed
  obtain ⟨other, kept, same⟩ := mem_map.mp listed
  obtain ⟨shown, unrestricted⟩ := mem_filter.mp kept
  obtain ⟨known, accessible⟩ := mem_filter.mp shown
  obtain rfl := KeyedList.eq_of_key db.cameraIds known member same
  rw [decide_eq_true_eq] at accessible
  unfold canPlaybackCamera
  rw [canViewCamera_of_accessible db user other member accessible, unprivileged,
    Directory.cameraAt_mem member, Bool.true_and, Bool.false_or, Option.bind_some]
  cases group : truthy other.groupId with
  | none => rfl
  | some groupId =>
    rw [group, Option.all_some, decide_eq_true_eq] at unrestricted
    apply decide_eq_true
    intro restricted
    obtain ⟨row, found, status⟩ := Option.map_eq_some_iff.mp restricted
    obtain ⟨present, named⟩ := KeyedList.lookup_mem found
    apply unrestricted
    exact mem_map.mpr ⟨row, mem_filter.mpr ⟨present, decide_eq_true status⟩, named⟩

end

end Gate

end DracVms.AccessControl
