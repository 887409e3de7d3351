import DracVms.AccessControl.AccessControl

namespace DracVms.AccessControl

open List

open Json (Text)
open Database

section Gates

variable (db : Directory)

/-- The gate of starting and stopping the recording of a camera. -/
def canRecordCamera (user : AuthUser) (cameraId : Text) : Bool :=
  (hasPrivateContentLevel db user cameraId .record).getD (hasLevel db user cameraId .record)

/-- What the gates of the content have in common. -/
def contentGate (user : AuthUser) (cameraId : Text) (minLevel : CameraPermissionLevel) : Bool :=
  (hasPrivateContentLevel db user cameraId minLevel).getD (hasLevel db user cameraId minLevel)

variable (user : AuthUser)

theorem contentGate_view (cameraId : Text) :
    contentGate db user cameraId .view = canViewCamera db user cameraId := rfl

theorem contentGate_control (cameraId : Text) :
    contentGate db user cameraId .control = canControlCamera db user cameraId := rfl

theorem contentGate_record (cameraId : Text) :
    contentGate db user cameraId .record = canRecordCamera db user cameraId := rfl

variable {db} {camera : Camera}

theorem contentGate_iff (member : camera ∈ db.cameras) (minLevel : CameraPermissionLevel) :
    contentGate db user camera.id minLevel = true ↔
      if camera.isPrivate then
        camera.ownerUserId = some user.id ∨ HasDirectLevel db user.id camera.id minLevel
      else
        isPrivileged user = true ∨ HasDirectLevel db user.id camera.id minLevel ∨
          GrantedLevel db user.id camera minLevel := by
  unfold contentGate hasPrivateContentLevel
  rw [Directory.cameraAt_mem member]
  dsimp only
  by_cases hidden : camera.isPrivate = true
  · rw [if_pos hidden, if_pos hidden]
    by_cases owned : camera.ownerUserId = some user.id
    · rw [if_pos owned]
      exact ⟨fun _ => Or.inl owned, fun _ => rfl⟩
    · rw [if_neg owned, Option.getD_some, any_eq_true]
      simp only [owned, false_or, HasDirectLevel, Bool.and_eq_true, decide_eq_true_eq, and_assoc]
  · rw [if_neg hidden, if_neg hidden]
    exact hasLevel_iff db user camera member minLevel

/-- The group of the camera keeps its live view only. -/
def Restricted (db : Directory) (camera : Camera) : Prop :=
  ∃ groupId, truthy camera.groupId = some groupId ∧
    ∃ group ∈ db.cameraGroups, group.id = groupId ∧ group.accessStatus = .restricted

theorem groupAt_restricted (groupId : Text) :
    (db.groupAt groupId).map CameraGroup.accessStatus = some .restricted ↔
      ∃ group ∈ db.cameraGroups, group.id = groupId ∧ group.accessStatus = .restricted := by
  rw [Option.map_eq_some_iff]
  constructor
  · intro ⟨group, found, status⟩
    obtain ⟨present, named⟩ := KeyedList.lookup_mem found
    exact ⟨group, present, named, status⟩
  · intro ⟨group, present, named, status⟩
    refine ⟨group, ?_, status⟩
    rw [← named]
    exact KeyedList.lookup_eq_some db.groupIds present

theorem canPlaybackCamera_iff (member : camera ∈ db.cameras) :
    canPlaybackCamera db user camera.id = true ↔
      canViewCamera db user camera.id = true ∧
        (isPrivileged user = true ∨ ¬Restricted db camera) := by
  unfold canPlaybackCamera Restricted
  rw [Directory.cameraAt_mem member, Option.bind_some, Bool.and_eq_true, Bool.or_eq_true]
  apply and_congr_right
  intro _
  apply or_congr_right
  cases group : truthy camera.groupId with
  | none => simp
  | some groupId =>
    simp only [decide_eq_true_eq, Option.some.injEq, exists_eq_left']
    exact not_congr (groupAt_restricted groupId)

theorem mem_getPlaybackCameraIds (member : camera ∈ db.cameras) :
    camera.id ∈ getPlaybackCameraIds db user ↔
      camera.id ∈ getAccessibleCameraIds db user ∧
        (isPrivileged user = true ∨ ¬Restricted db camera) := by
  unfold getPlaybackCameraIds
  by_cases privileged : isPrivileged user = true
  · rw [if_pos privileged]
    exact ⟨fun listed => ⟨listed, Or.inl privileged⟩, fun both => both.1⟩
  · rw [if_neg privileged, or_iff_right privileged]
    simp only [mem_map, mem_filter, decide_eq_true_eq]
    have unrestricted : ((truthy camera.groupId).all fun groupId =>
        decide (groupId ∉ (db.cameraGroups.filter fun group =>
          group.accessStatus = .restricted).map CameraGroup.id)) = true ↔
        ¬Restricted db camera := by
      unfold Restricted
      cases truthy camera.groupId with
      | none => simp
      | some groupId =>
        simp only [Option.all_some, decide_eq_true_eq, Option.some.injEq, exists_eq_left',
          mem_map, mem_filter]
        apply not_congr
        apply exists_congr
        intro group
        constructor
        · exact fun both => ⟨both.1.1, both.2, both.1.2⟩
        · exact fun both => ⟨⟨both.1, both.2.2⟩, both.2.1⟩
    constructor
    · intro ⟨other, ⟨⟨present, listed⟩, free⟩, same⟩
      obtain rfl := KeyedList.eq_of_key db.cameraIds present member same
      exact ⟨listed, unrestricted.mp free⟩
    · intro ⟨listed, free⟩
      exact ⟨camera, ⟨⟨member, listed⟩, unrestricted.mpr free⟩, rfl⟩

/-- The owner of a private camera who is no administrator and has neither a permission of its own
for it nor one for its group. -/
structure Overlooked (db : Directory) (user : AuthUser) (camera : Camera) : Prop where
  hidden : camera.isPrivate = true
  owned : camera.ownerUserId = some user.id
  unprivileged : isPrivileged user = false
  undirected : ¬HasDirect db user.id camera.id
  ungranted : ¬GrantedByGroup db user.id camera

/-- Each list has the camera exactly when its gate lets the user through. -/
structure Agree (db : Directory) (user : AuthUser) (camera : Camera) : Prop where
  view : camera.id ∈ getAccessibleCameraIds db user ↔ canViewCamera db user camera.id = true
  playback : camera.id ∈ getPlaybackCameraIds db user ↔
    canPlaybackCamera db user camera.id = true

theorem accessible_iff_canView (member : camera ∈ db.cameras) :
    (camera.id ∈ getAccessibleCameraIds db user ↔ canViewCamera db user camera.id = true) ↔
      ¬Overlooked db user camera := by
  constructor
  · intro agrees overlooked
    have views : canViewCamera db user camera.id = true := by
      rw [canViewCamera_iff db user camera member, if_pos overlooked.hidden]
      exact Or.inl overlooked.owned
    have listed := agrees.mpr views
    rw [mem_getAccessibleCameraIds db user camera member, overlooked.unprivileged] at listed
    rcases listed with direct | ⟨granted, _⟩
    · exact overlooked.undirected direct
    · exact overlooked.ungranted granted
  · intro seen
    constructor
    · exact canViewCamera_of_accessible db user camera member
    · intro views
      rw [canViewCamera_iff db user camera member] at views
      rw [mem_getAccessibleCameraIds db user camera member]
      by_cases hidden : camera.isPrivate = true
      · rw [if_pos hidden] at views
        by_cases privileged : isPrivileged user = true
        · rw [if_pos privileged]
          exact fun _ => views
        · rw [if_neg privileged]
          rcases views with owned | direct
          · by_cases direct : HasDirect db user.id camera.id
            · exact Or.inl direct
            · right
              refine ⟨?_, fun _ => owned⟩
              by_contra ungranted
              exact seen ⟨hidden, owned, Bool.eq_false_iff.mpr privileged, direct, ungranted⟩
          · exact Or.inl direct
      · rw [if_neg hidden] at views
        by_cases privileged : isPrivileged user = true
        · rw [if_pos privileged]
          exact fun secret => absurd secret hidden
        · rw [if_neg privileged]
          rcases views with superior | direct | granted
          · exact absurd superior privileged
          · exact Or.inl direct
          · exact Or.inr ⟨granted, fun secret => absurd secret hidden⟩

/-- The lists and the gates agree on a camera unless its owner is overlooked. -/
theorem lists_agree_iff (db : Directory) (user : AuthUser) (camera : Camera)
    (member : camera ∈ db.cameras) : Agree db user camera ↔ ¬Overlooked db user camera := by
  constructor
  · exact fun agree => (accessible_iff_canView user member).mp agree.view
  · intro seen
    have view := (accessible_iff_canView user member).mpr seen
    refine ⟨view, ?_⟩
    rw [mem_getPlaybackCameraIds user member, canPlaybackCamera_iff user member, view]

end Gates

/-! An owner without any permission row. -/

def ownCamera : Camera where
  id := "c".toList
  name := []
  status := .online
  lastSeenAt := none
  recordingEnabled := true
  groupId := none
  isPrivate := true
  ownerUserId := some "u".toList
  site := none
  area := none
  createdAt := 0

def ownDirectory : Directory where
  users := []
  cameraGroups := []
  cameras := [ownCamera]
  cameraPermissions := []
  userIds := nodup_nil
  groupIds := nodup_nil
  cameraIds := nodup_singleton _
  named := by
    intro camera member
    rw [mem_singleton.mp member]
    exact cons_ne_nil _ _
  permitted _ member := absurd member not_mem_nil

/-- For an administrator the two agree there. -/
theorem admin_agrees : Agree ownDirectory ⟨"a".toList, .admin⟩ ownCamera ↔
      ¬Overlooked ownDirectory ⟨"a".toList, .admin⟩ ownCamera :=
  lists_agree_iff ownDirectory ⟨"a".toList, .admin⟩ ownCamera (mem_singleton_self _)

/-- The owner sees the camera, but the list does not have it. -/
theorem owner_overlooked :
    ¬ ∀ (db : Directory) (user : AuthUser) (camera : Camera), camera ∈ db.cameras →
      Agree db user camera := by
  intro always
  have agree := always ownDirectory ⟨"u".toList, .viewer⟩ ownCamera (mem_singleton_self _)
  have listed := agree.view.mpr (by decide +kernel)
  exact absurd listed (by decide +kernel)

end DracVms.AccessControl
