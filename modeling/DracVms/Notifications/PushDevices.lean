import DracVms.AccessControl.AccessControl

namespace DracVms.PushDevices

open List

open Json (Text)
open Database AccessControl

structure PushDevice where
  userId : Text
  token : Text

structure NotificationMute where
  userId : Text
  cameraId : Text
  deriving DecidableEq

/-- The registered devices beside the directory. A device belongs to an account, and its token is
unique. -/
structure Registry extends Directory where
  pushDevices : List PushDevice
  notificationMutes : List NotificationMute
  tokens : (pushDevices.map PushDevice.token).Nodup
  owned : ∀ device ∈ pushDevices, ∃ user ∈ users, user.id = device.userId

def authOf (user : User) : AuthUser := ⟨user.id, user.role⟩

section Tokens

variable (db : Registry)

def tokensForUsers (userIds : List Text) : List Text :=
  (db.pushDevices.filter fun device => device.userId ∈ userIds).map PushDevice.token

def privilegedUsers : List User :=
  db.users.filter fun user => user.isActive && (user.role = .superAdmin || user.role = .admin)

def tokensForPrivileged : List Text := tokensForUsers db ((privilegedUsers db).map User.id)

/-- The users with a permission for the camera, or for its group. -/
def permittedUsers (cameraId : Text) : List Text :=
  let groupId := (db.cameraAt cameraId).bind fun camera => truthy camera.groupId
  (db.cameraPermissions.filter fun perm =>
    perm.cameraId = some cameraId || groupId.any fun id => perm.groupId = some id).map
      CameraPermission.userId

def mutedUsers (cameraId : Text) (userIds : List Text) : List Text :=
  (db.notificationMutes.filter fun mute => mute.cameraId = cameraId && mute.userId ∈ userIds).map
    NotificationMute.userId

def getTokensForCamera (cameraId : Option Text) : List Text :=
  match truthy cameraId with
  | none => tokensForPrivileged db
  | some cameraId =>
    let userIds := unique ((privilegedUsers db).map User.id ++ permittedUsers db cameraId)
    let mutedSet := mutedUsers db cameraId userIds
    tokensForUsers db (userIds.filter fun id => id ∉ mutedSet)

def isMuted (userId cameraId : Text) : Bool := ⟨userId, cameraId⟩ ∈ db.notificationMutes

/-- The user is active and the gate of the camera lets it through. -/
def isViewer (userId cameraId : Text) : Bool :=
  db.users.any fun user =>
    user.id = userId && user.isActive && canViewCamera db.toDirectory (authOf user) cameraId

/-- The devices of the active users who may view the camera and did not mute it. -/
def viewerTokens (cameraId : Text) : List Text :=
  (db.pushDevices.filter fun device =>
    isViewer db device.userId cameraId && !isMuted db device.userId cameraId).map PushDevice.token

/-- The lookup from the camera to its users agrees with the gate on this user. -/
structure Mirrored (camera : Camera) (user : User) : Prop where
  inactive : user.isActive = false →
    ¬HasDirect db.toDirectory user.id camera.id ∧ ¬HasGroup db.toDirectory user.id camera
  suspended : user.isActive = true → camera.isPrivate = false →
    isPrivileged (authOf user) = false → ¬HasDirect db.toDirectory user.id camera.id →
    HasGroup db.toDirectory user.id camera → GrantedByGroup db.toDirectory user.id camera
  secret : user.isActive = true → camera.isPrivate = true →
    ¬HasDirect db.toDirectory user.id camera.id →
    (camera.ownerUserId = some user.id ↔
      isPrivileged (authOf user) = true ∨ HasGroup db.toDirectory user.id camera)

theorem mem_permittedUsers (camera : Camera) (member : camera ∈ db.cameras) (userId : Text) :
    userId ∈ permittedUsers db camera.id ↔
      HasDirect db.toDirectory userId camera.id ∨ HasGroup db.toDirectory userId camera := by
  unfold permittedUsers HasDirect HasGroup
  rw [Directory.cameraAt_mem member]
  simp only [Option.bind_some, mem_map, mem_filter, Bool.or_eq_true, decide_eq_true_eq,
    Option.any_eq_true]
  constructor
  · rintro ⟨perm, ⟨listed, direct | ⟨groupId, group, byGroup⟩⟩, rfl⟩
    · exact Or.inl ⟨perm, listed, rfl, direct⟩
    · exact Or.inr ⟨groupId, group, perm, listed, rfl, byGroup⟩
  · rintro (⟨perm, listed, rfl, direct⟩ | ⟨groupId, group, perm, listed, rfl, byGroup⟩)
    · exact ⟨perm, ⟨listed, Or.inl direct⟩, rfl⟩
    · exact ⟨perm, ⟨listed, Or.inr ⟨groupId, group, byGroup⟩⟩, rfl⟩

theorem mem_privilegedUsers (user : User) (member : user ∈ db.users) :
    user.id ∈ (privilegedUsers db).map User.id ↔
      user.isActive = true ∧ isPrivileged (authOf user) = true := by
  unfold privilegedUsers isPrivileged authOf
  simp only [mem_map, mem_filter, Bool.and_eq_true]
  constructor
  · rintro ⟨other, ⟨listed, active, role⟩, same⟩
    obtain rfl := KeyedList.eq_of_key db.userIds listed member same
    exact ⟨active, role⟩
  · rintro ⟨active, role⟩
    exact ⟨user, ⟨member, active, role⟩, rfl⟩

theorem isViewer_iff (user : User) (member : user ∈ db.users) (cameraId : Text) :
    isViewer db user.id cameraId = true ↔
      user.isActive = true ∧ canViewCamera db.toDirectory (authOf user) cameraId = true := by
  unfold isViewer
  simp only [any_eq_true, Bool.and_eq_true, decide_eq_true_eq]
  constructor
  · rintro ⟨other, listed, ⟨same, active⟩, allowed⟩
    obtain rfl := KeyedList.eq_of_key db.userIds listed member same
    exact ⟨active, allowed⟩
  · rintro ⟨active, allowed⟩
    exact ⟨user, member, ⟨rfl, active⟩, allowed⟩

theorem getTokensForCamera_eq (cameraId : Text) (given : cameraId ≠ []) :
    getTokensForCamera db (some cameraId) =
      (db.pushDevices.filter fun device =>
        (device.userId ∈ (privilegedUsers db).map User.id ||
          device.userId ∈ permittedUsers db cameraId) &&
          !isMuted db device.userId cameraId).map PushDevice.token := by
  have asked : truthy (some cameraId) = some cameraId := by simp [truthy, given]
  unfold getTokensForCamera
  rw [asked]
  dsimp only
  unfold tokensForUsers
  congr 1
  apply filter_congr
  intro device _
  apply Bool.eq_iff_iff.mpr
  simp only [decide_eq_true_eq, mem_filter, mem_unique, mem_append, Bool.and_eq_true,
    Bool.or_eq_true, Bool.not_eq_true', isMuted, decide_eq_false_iff_not, decide_not, mutedUsers]
  apply and_congr_right
  intro listed
  apply not_congr
  simp only [mem_map, mem_filter, Bool.and_eq_true, decide_eq_true_eq]
  constructor
  · rintro ⟨mute, ⟨present, rfl, -⟩, same⟩
    rw [← same]
    exact present
  · intro present
    exact ⟨_, ⟨present, rfl, listed.imp_left mem_map.mp⟩, rfl⟩

/-- On an account the lookup agrees with the gate exactly when the account is mirrored. -/
theorem mirrored_iff (camera : Camera) (member : camera ∈ db.cameras) (user : User)
    (known : user ∈ db.users) :
    (user.id ∈ (privilegedUsers db).map User.id ∨ user.id ∈ permittedUsers db camera.id ↔
        isViewer db user.id camera.id = true) ↔ Mirrored db camera user := by
  have viewer : canViewCamera db.toDirectory (authOf user) camera.id = true ↔
      if camera.isPrivate then
        camera.ownerUserId = some user.id ∨ HasDirect db.toDirectory user.id camera.id
      else isPrivileged (authOf user) = true ∨ HasDirect db.toDirectory user.id camera.id ∨
        GrantedByGroup db.toDirectory user.id camera :=
    canViewCamera_iff db.toDirectory (authOf user) camera member
  have granted : GrantedByGroup db.toDirectory user.id camera →
      HasGroup db.toDirectory user.id camera := by
    rintro ⟨groupId, group, -, byGroup⟩
    exact ⟨groupId, group, byGroup⟩
  rw [mem_privilegedUsers db user known, mem_permittedUsers db camera member,
    isViewer_iff db user known, viewer]
  constructor
  · intro same
    refine ⟨?_, ?_, ?_⟩
    · intro inactive
      simp only [inactive, Bool.false_eq_true, false_and, false_or, iff_false, not_or] at same
      exact same
    · intro active shown unprivileged direct group
      simp only [active, shown, unprivileged, direct, Bool.false_eq_true, and_false, true_and,
        if_false, false_or] at same
      exact same.mp group
    · intro active secret direct
      simp only [active, secret, direct, true_and, if_true, false_or, or_false] at same
      exact same.symm
  · rintro ⟨inactive, suspended, secret⟩
    cases active : user.isActive with
    | false =>
      obtain ⟨direct, group⟩ := inactive active
      simp [direct, group]
    | true =>
      by_cases direct : HasDirect db.toDirectory user.id camera.id
      · simp [direct]
      · simp only [direct, true_and, false_or, or_false]
        cases hidden : camera.isPrivate with
        | true => exact (secret active hidden direct).symm
        | false =>
          cases privileged : isPrivileged (authOf user) with
          | true => simp
          | false =>
            simp only [Bool.false_eq_true, if_false, false_or]
            exact ⟨suspended active hidden privileged direct, granted⟩

/-- The tokens are the devices of the viewers exactly when each account that has a device and did
not mute the camera is mirrored. -/
theorem tokens_of_viewers_iff (camera : Camera) (member : camera ∈ db.cameras) :
    getTokensForCamera db (some camera.id) = viewerTokens db camera.id ↔
      ∀ user ∈ db.users, (∃ device ∈ db.pushDevices, device.userId = user.id) →
        isMuted db user.id camera.id = false → Mirrored db camera user := by
  rw [getTokensForCamera_eq db camera.id (db.named camera member), viewerTokens,
    KeyedList.map_filter_eq_iff db.tokens]
  constructor
  · intro same user known ⟨device, listed, owner⟩ heard
    apply (mirrored_iff db camera member user known).mp
    have here := same device listed
    rw [owner, heard] at here
    simp only [Bool.not_false, Bool.and_true] at here
    rw [← here, Bool.or_eq_true, decide_eq_true_eq, decide_eq_true_eq]
  · intro mirrored device listed
    obtain ⟨user, known, owner⟩ := db.owned device listed
    cases heard : isMuted db device.userId camera.id with
    | true => simp
    | false =>
      rw [← owner] at heard ⊢
      have agrees := (mirrored_iff db camera member user known).mpr
        (mirrored user known ⟨device, listed, owner.symm⟩ heard)
      apply Bool.eq_iff_iff.mpr
      rw [Bool.not_false, Bool.and_true, Bool.and_true, ← agrees, Bool.or_eq_true,
        decide_eq_true_eq, decide_eq_true_eq]

end Tokens

def yard : Camera :=
  ⟨['c'], [], .online, none, true, none, false, none, none, none, 0⟩

/-- An operator with a permission for the yard and a device. -/
def sharedYard : Registry :=
  { users := [⟨['u'], .operator, true⟩], cameraGroups := [], cameras := [yard]
    cameraPermissions := [⟨['u'], some ['c'], none, .view⟩]
    pushDevices := [⟨['u'], ['t']⟩], notificationMutes := []
    userIds := nodup_singleton _, groupIds := nodup_nil
    cameraIds := nodup_singleton _, tokens := nodup_singleton _
    named := forall_mem_singleton.mpr (cons_ne_nil _ _)
    permitted := forall_mem_singleton.mpr fun _ same =>
      ⟨yard, mem_singleton_self _, Option.some.inj same⟩
    owned := forall_mem_singleton.mpr ⟨_, mem_singleton_self _, rfl⟩ }

theorem sharedYard_notified :
    getTokensForCamera sharedYard (some ['c']) = viewerTokens sharedYard ['c'] := by
  apply (tokens_of_viewers_iff sharedYard yard (mem_singleton_self _)).mpr
  intro user known _ _
  obtain rfl := mem_singleton.mp known
  refine ⟨nofun, ?_, nofun⟩
  intro _ _ _ direct
  exact absurd ⟨_, mem_singleton_self _, rfl, rfl⟩ direct

/-- A private camera, its owner, and an administrator with a device. -/
def privateYard : Registry :=
  { users := [⟨['o'], .viewer, true⟩, ⟨['a'], .admin, true⟩], cameraGroups := []
    cameras := [{ yard with isPrivate := true, ownerUserId := some ['o'] }]
    cameraPermissions := [], pushDevices := [⟨['a'], ['t']⟩], notificationMutes := []
    userIds := by decide, groupIds := nodup_nil
    cameraIds := nodup_singleton _, tokens := nodup_singleton _
    named := forall_mem_singleton.mpr (cons_ne_nil _ _)
    permitted := fun _ listed => absurd listed not_mem_nil
    owned := forall_mem_singleton.mpr ⟨_, mem_cons_of_mem _ mem_cons_self, rfl⟩ }

/-- The alert of a private camera goes to an administrator whom the gate turns away. -/
theorem privateYard_leaks : getTokensForCamera privateYard (some ['c']) = [['t']] ∧
      viewerTokens privateYard ['c'] = [] := by
  decide +kernel

end DracVms.PushDevices
