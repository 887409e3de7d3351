import DracVms.AccessControl.ContentGates

namespace DracVms.AccessControl

open List

open Json (Text)
open Database

/-- Everything that is decided about the content of a camera. -/
structure Decisions where
  view : Bool
  control : Bool
  record : Bool
  playback : Bool
  accessible : Bool
  playbackListed : Bool

def decisions (db : Directory) (user : AuthUser) (cameraId : Text) : Decisions where
  view := canViewCamera db user cameraId
  control := canControlCamera db user cameraId
  record := canRecordCamera db user cameraId
  playback := canPlaybackCamera db user cameraId
  accessible := cameraId ∈ getAccessibleCameraIds db user
  playbackListed := cameraId ∈ getPlaybackCameraIds db user

def noContent : Decisions := ⟨false, false, false, false, false, false⟩

/-- A private camera of somebody else, and no permission of one's own for it. -/
structure Outsider (db : Directory) (user : AuthUser) (camera : Camera) : Prop where
  notOwner : camera.ownerUserId ≠ some user.id
  undirected : ¬HasDirect db user.id camera.id

/-- A private camera of somebody else, and a permission of one's own for it. -/
structure Holder (db : Directory) (user : AuthUser) (camera : Camera) : Prop where
  notOwner : camera.ownerUserId ≠ some user.id
  direct : HasDirect db user.id camera.id

/-- Two users hold direct permissions of the same levels, each in a state of its own. -/
def SameLevels (db db' : Directory) (user user' : AuthUser) (camera camera' : Camera) : Prop :=
  ∀ minLevel, HasDirectLevel db user.id camera.id minLevel ↔
    HasDirectLevel db' user'.id camera'.id minLevel

section Private

variable {db : Directory} {user : AuthUser} {camera : Camera}

theorem hasDirect_of_level {userId cameraId : Text} {minLevel : CameraPermissionLevel}
    (direct : HasDirectLevel db userId cameraId minLevel) : HasDirect db userId cameraId := by
  obtain ⟨perm, listed, own, named, _⟩ := direct
  exact ⟨perm, listed, own, named⟩

section

variable (member : camera ∈ db.cameras) (hidden : camera.isPrivate = true)

include member hidden

theorem contentGate_private (other : camera.ownerUserId ≠ some user.id)
    (minLevel : CameraPermissionLevel) : contentGate db user camera.id minLevel = true ↔
      HasDirectLevel db user.id camera.id minLevel := by
  rw [contentGate_iff user member, if_pos hidden]
  exact or_iff_right other

theorem accessible_private (other : camera.ownerUserId ≠ some user.id) :
    camera.id ∈ getAccessibleCameraIds db user ↔ HasDirect db user.id camera.id := by
  rw [mem_getAccessibleCameraIds db user camera member]
  split
  · exact ⟨fun open_ => (open_ hidden).resolve_left other, fun direct _ => Or.inr direct⟩
  · constructor
    · intro listed
      rcases listed with direct | ⟨_, owned⟩
      · exact direct
      · exact absurd (owned hidden) other
    · exact Or.inl

theorem outsider_decisions (outsider : Outsider db user camera) :
    decisions db user camera.id = noContent := by
  have gate : ∀ minLevel, contentGate db user camera.id minLevel = false := by
    intro minLevel
    apply Bool.eq_false_iff.mpr
    intro through
    have direct := (contentGate_private member hidden outsider.notOwner minLevel).mp through
    exact outsider.undirected (hasDirect_of_level direct)
  have unlisted : camera.id ∉ getAccessibleCameraIds db user := fun listed =>
    outsider.undirected ((accessible_private member hidden outsider.notOwner).mp listed)
  have unplayed : canPlaybackCamera db user camera.id = false := by
    apply Bool.eq_false_iff.mpr
    intro plays
    have views := ((canPlaybackCamera_iff user member).mp plays).1
    rw [← contentGate_view, gate] at views
    cases views
  have unlistedToo : camera.id ∉ getPlaybackCameraIds db user := fun listed =>
    unlisted ((mem_getPlaybackCameraIds user member).mp listed).1
  rw [decisions, noContent, ← contentGate_view, ← contentGate_control, ← contentGate_record, gate,
    gate, gate, unplayed, decide_eq_false unlisted, decide_eq_false unlistedToo]

/-- The history of a camera for one who holds a permission of his own. -/
theorem holder_playback (holder : Holder db user camera) :
    (canPlaybackCamera db user camera.id = true ↔
        isPrivileged user = true ∨ ¬Restricted db camera) ∧
      (camera.id ∈ getPlaybackCameraIds db user ↔
        isPrivileged user = true ∨ ¬Restricted db camera) := by
  have views : canViewCamera db user camera.id = true := by
    rw [← contentGate_view, contentGate_private member hidden holder.notOwner, hasDirectLevel_view]
    exact holder.direct
  have listed := (accessible_private member hidden holder.notOwner).mpr holder.direct
  rw [canPlaybackCamera_iff user member, mem_getPlaybackCameraIds user member]
  exact ⟨and_iff_right views, and_iff_right listed⟩

end

end Private

/-- Private content knows neither roles nor groups: nobody but the owner and those with a direct
permission gets any of it, and these get what their level says; of the history they get the same,
given the same restriction of the group and the same exemption of administrators from it. -/
structure Confined (db : Directory) (camera : Camera) : Prop where
  outsiders : ∀ first second : AuthUser, Outsider db first camera → Outsider db second camera →
    decisions db first camera.id = noContent ∧ decisions db second camera.id = noContent
  holders : ∀ (db' : Directory) (camera' : Camera) (first second : AuthUser),
    camera' ∈ db'.cameras → camera'.isPrivate = true → Holder db first camera →
    Holder db' second camera' → SameLevels db db' first second camera camera' →
      canViewCamera db first camera.id = canViewCamera db' second camera'.id ∧
        canControlCamera db first camera.id = canControlCamera db' second camera'.id ∧
        canRecordCamera db first camera.id = canRecordCamera db' second camera'.id ∧
        (camera.id ∈ getAccessibleCameraIds db first ↔
          camera'.id ∈ getAccessibleCameraIds db' second)
  histories : ∀ (db' : Directory) (camera' : Camera) (first second : AuthUser),
    camera' ∈ db'.cameras → camera'.isPrivate = true → Holder db first camera →
    Holder db' second camera' → SameLevels db db' first second camera camera' →
    (Restricted db camera ↔ Restricted db' camera') → isPrivileged first = isPrivileged second →
      decisions db first camera.id = decisions db' second camera'.id

theorem holders_agree {db db' : Directory} {camera camera' : Camera} {first second : AuthUser}
    (member : camera ∈ db.cameras) (hidden : camera.isPrivate = true)
    (member' : camera' ∈ db'.cameras) (hidden' : camera'.isPrivate = true)
    (holds : Holder db first camera) (holds' : Holder db' second camera')
    (same : SameLevels db db' first second camera camera') (minLevel : CameraPermissionLevel) :
    contentGate db first camera.id minLevel = contentGate db' second camera'.id minLevel := by
  apply Bool.eq_iff_iff.mpr
  rw [contentGate_private member hidden holds.notOwner,
    contentGate_private member' hidden' holds'.notOwner]
  exact same minLevel

/-- Privilege does not reach into private content. -/
theorem private_content_confined (db : Directory) (camera : Camera) (member : camera ∈ db.cameras)
    (hidden : camera.isPrivate = true) : Confined db camera where
  outsiders first second outside outside' :=
    ⟨outsider_decisions member hidden outside, outsider_decisions member hidden outside'⟩
  holders := by
    intro db' camera' first second member' hidden' holds holds' same
    have gates := holders_agree member hidden member' hidden' holds holds' same
    refine ⟨gates .view, gates .control, gates .record, ?_⟩
    rw [accessible_private member hidden holds.notOwner,
      accessible_private member' hidden' holds'.notOwner]
    exact iff_of_true holds.direct holds'.direct
  histories := by
    intro db' camera' first second member' hidden' holds holds' same restriction privilege
    have gates := holders_agree member hidden member' hidden' holds holds' same
    have listed : decide (camera.id ∈ getAccessibleCameraIds db first) =
        decide (camera'.id ∈ getAccessibleCameraIds db' second) := by
      apply decide_eq_decide.mpr
      rw [accessible_private member hidden holds.notOwner,
        accessible_private member' hidden' holds'.notOwner]
      exact iff_of_true holds.direct holds'.direct
    obtain ⟨plays, played⟩ := holder_playback member hidden holds
    obtain ⟨plays', played'⟩ := holder_playback member' hidden' holds'
    have exempt : (isPrivileged first = true ∨ ¬Restricted db camera) ↔
        (isPrivileged second = true ∨ ¬Restricted db' camera') := by
      rw [privilege, restriction]
    have playback : canPlaybackCamera db first camera.id =
        canPlaybackCamera db' second camera'.id := by
      apply Bool.eq_iff_iff.mpr
      rw [plays, plays', exempt]
    have history : decide (camera.id ∈ getPlaybackCameraIds db first) =
        decide (camera'.id ∈ getPlaybackCameraIds db' second) := by
      apply decide_eq_decide.mpr
      rw [played, played', exempt]
    rw [decisions, decisions, ← contentGate_view, ← contentGate_view, ← contentGate_control,
      ← contentGate_control, ← contentGate_record, ← contentGate_record, gates .view,
      gates .control, gates .record, listed, playback, history]

/-! An administrator and a viewer with the same direct permission, in a restricted group. -/

def sharedCamera : Camera := { ownCamera with groupId := some "g".toList }

def sharedDirectory : Directory where
  users := []
  cameraGroups := [⟨"g".toList, [], true, .restricted⟩]
  cameras := [sharedCamera]
  cameraPermissions :=
    [⟨"a".toList, some "c".toList, none, .view⟩, ⟨"v".toList, some "c".toList, none, .view⟩]
  userIds := nodup_nil
  groupIds := nodup_singleton _
  cameraIds := nodup_singleton _
  named := by
    intro camera member
    rw [mem_singleton.mp member]
    exact cons_ne_nil _ _
  permitted := by
    intro perm member id named
    refine ⟨sharedCamera, mem_singleton_self _, ?_⟩
    have target : ∀ perm ∈ ([⟨"a".toList, some "c".toList, none, .view⟩,
        ⟨"v".toList, some "c".toList, none, .view⟩] : List CameraPermission),
        perm.cameraId = some "c".toList := by decide
    rw [target perm member] at named
    exact Option.some.inj named

/-- The camera of an owner, with two permissions of others. -/
theorem own_camera_confined : Confined sharedDirectory sharedCamera :=
  private_content_confined sharedDirectory sharedCamera (mem_singleton_self _) rfl

/-- The restriction of the group keeps the history from the viewer and not from the administrator:
it depends on the role. -/
theorem privileged_history :
    ¬ ∀ (db : Directory) (camera : Camera), camera ∈ db.cameras → camera.isPrivate = true →
      ∀ first second : AuthUser, Holder db first camera → Holder db second camera →
        SameLevels db db first second camera camera →
          decisions db first camera.id = decisions db second camera.id := by
  intro always
  have holds : ∀ id, id = "a".toList ∨ id = "v".toList → HasDirect sharedDirectory id
      sharedCamera.id := by
    intro id named
    rcases named with rfl | rfl
    · exact ⟨_, mem_cons_self, rfl, rfl⟩
    · exact ⟨_, mem_cons_of_mem _ mem_cons_self, rfl, rfl⟩
  have levels : SameLevels sharedDirectory sharedDirectory ⟨"a".toList, .admin⟩
      ⟨"v".toList, .viewer⟩ sharedCamera sharedCamera := by
    intro minLevel
    simp [HasDirectLevel, sharedDirectory, sharedCamera, ownCamera]
  have same := always sharedDirectory sharedCamera (mem_singleton_self _) rfl
    ⟨"a".toList, .admin⟩ ⟨"v".toList, .viewer⟩ ⟨by decide, holds _ (Or.inl rfl)⟩
    ⟨by decide, holds _ (Or.inr rfl)⟩ levels
  exact absurd (congrArg Decisions.playback same) (by decide +kernel)

end DracVms.AccessControl
