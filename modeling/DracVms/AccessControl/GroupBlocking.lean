import DracVms.AccessControl.PrivateContent

namespace DracVms.AccessControl

open KeyedList
open Json (Text)
open Database

/-- The commercial status of a group. -/
structure Standing where
  isActive : Bool
  accessStatus : GroupAccessStatus

/-- Active, then restricted, then suspended or not active. -/
def Standing.severity (standing : Standing) : ℕ :=
  match standing.isActive, standing.accessStatus with
  | false, _ => 2
  | true, .suspended => 2
  | true, .restricted => 1
  | true, .active => 0

def Standing.put (standing : Standing) (group : CameraGroup) : CameraGroup :=
  { group with isActive := standing.isActive, accessStatus := standing.accessStatus }

/-- The database with the group in this standing. -/
def setStanding (db : Directory) (groupId : Text) (standing : Standing) : Directory :=
  { db with
    cameraGroups := KeyedList.updateAt CameraGroup.id db.cameraGroups groupId standing.put
    groupIds := by
      rw [map_updateAt CameraGroup.id db.cameraGroups groupId standing.put CameraGroup.id
        fun _ => rfl]
      exact db.groupIds }

/-- Whatever is granted in the second case is granted in the first. -/
structure Within (wide narrow : Decisions) : Prop where
  view : narrow.view = true → wide.view = true
  control : narrow.control = true → wide.control = true
  record : narrow.record = true → wide.record = true
  playback : narrow.playback = true → wide.playback = true
  accessible : narrow.accessible = true → wide.accessible = true
  playbackListed : narrow.playbackListed = true → wide.playbackListed = true

/-- One whom the restriction of the group bars from the history, who sees the camera without the
group, and whose group becomes suspended or inactive without staying restricted. -/
structure Regains (db : Directory) (user : AuthUser) (camera : Camera) (before after : Standing) :
    Prop where
  restricted : before.severity = 1
  lifted : after.accessStatus ≠ .restricted
  unprivileged : isPrivileged user = false
  own : HasDirect db user.id camera.id ∨
    camera.isPrivate = true ∧ camera.ownerUserId = some user.id

section Standing

variable {db : Directory} {groupId : Text} {group : CameraGroup}

theorem allowed_setStanding (present : group ∈ db.cameraGroups) (named : group.id = groupId)
    (standing : Standing) : GroupAllowed (setStanding db groupId standing) groupId ↔
      standing.isActive = true ∧ standing.accessStatus ≠ .suspended := by
  subst named
  constructor
  · intro ⟨row, listed, same, active, status⟩
    rcases (mem_updateAt db.groupIds present standing.put row).mp listed with new | old
    · rw [new] at active status
      exact ⟨active, status⟩
    · exact absurd same old.2
  · intro ⟨active, status⟩
    have listed := (mem_updateAt db.groupIds present standing.put
      (standing.put group)).mpr (Or.inl rfl)
    exact ⟨standing.put group, listed, rfl, active, status⟩

variable {camera : Camera}

section

variable (present : group ∈ db.cameraGroups) (named : group.id = groupId)
  (inGroup : truthy camera.groupId = some groupId) (standing : Standing)

include present named inGroup

theorem restricted_setStanding :
    Restricted (setStanding db groupId standing) camera ↔ standing.accessStatus = .restricted := by
  subst named
  unfold Restricted
  rw [inGroup]
  simp only [Option.some.injEq, exists_eq_left']
  constructor
  · intro ⟨row, listed, same, status⟩
    rcases (mem_updateAt db.groupIds present standing.put row).mp listed with new | old
    · rw [new] at status
      exact status
    · exact absurd same old.2
  · intro status
    have listed := (mem_updateAt db.groupIds present standing.put
      (standing.put group)).mpr (Or.inl rfl)
    exact ⟨standing.put group, listed, rfl, status⟩

theorem grantedLevel_setStanding (userId : Text) (minLevel : CameraPermissionLevel) :
    GrantedLevel (setStanding db groupId standing) userId camera minLevel ↔
      (standing.isActive = true ∧ standing.accessStatus ≠ .suspended) ∧
        ∃ perm ∈ db.cameraPermissions, perm.userId = userId ∧ perm.groupId = some groupId ∧
          levelWeight minLevel ≤ levelWeight perm.level := by
  unfold GrantedLevel
  rw [inGroup]
  simp only [Option.some.injEq, exists_eq_left', allowed_setStanding present named]
  rfl

end

theorem grants_iff (standing : Standing) :
    standing.isActive = true ∧ standing.accessStatus ≠ .suspended ↔ standing.severity ≤ 1 := by
  obtain ⟨active, status⟩ := standing
  cases active <;> cases status <;> decide

variable {before after : Standing}

theorem grants_of_worse (worse : before.severity ≤ after.severity)
    (grants : after.isActive = true ∧ after.accessStatus ≠ .suspended) :
    before.isActive = true ∧ before.accessStatus ≠ .suspended := by
  rw [grants_iff] at grants ⊢
  omega

variable {user : AuthUser}

section

variable (member : camera ∈ db.cameras) (present : group ∈ db.cameraGroups)
  (named : group.id = groupId) (inGroup : truthy camera.groupId = some groupId)

include member present named inGroup

theorem gate_worse (worse : before.severity ≤ after.severity) (minLevel : CameraPermissionLevel)
    (through : contentGate (setStanding db groupId after) user camera.id minLevel = true) :
    contentGate (setStanding db groupId before) user camera.id minLevel = true := by
  rw [@contentGate_iff (setStanding db groupId after) user camera member] at through
  rw [@contentGate_iff (setStanding db groupId before) user camera member]
  split at through
  · rename_i hidden
    rw [if_pos hidden]
    exact through
  · rename_i shown
    rw [if_neg shown]
    rcases through with privileged | direct | granted
    · exact Or.inl privileged
    · exact Or.inr (Or.inl direct)
    · rw [grantedLevel_setStanding present named inGroup] at granted
      right
      right
      rw [grantedLevel_setStanding present named inGroup]
      exact ⟨grants_of_worse worse granted.1, granted.2⟩

theorem accessible_worse (worse : before.severity ≤ after.severity)
    (listed : camera.id ∈ getAccessibleCameraIds (setStanding db groupId after) user) :
    camera.id ∈ getAccessibleCameraIds (setStanding db groupId before) user := by
  rw [mem_getAccessibleCameraIds (setStanding db groupId after) user camera member] at listed
  rw [mem_getAccessibleCameraIds (setStanding db groupId before) user camera member]
  split at listed
  · rename_i privileged
    rw [if_pos privileged]
    exact listed
  · rename_i unprivileged
    rw [if_neg unprivileged]
    rcases listed with direct | ⟨granted, owned⟩
    · exact Or.inl direct
    · right
      refine ⟨?_, owned⟩
      rw [← grantedLevel_view, grantedLevel_setStanding present named inGroup] at granted ⊢
      exact ⟨grants_of_worse worse granted.1, granted.2⟩

theorem own_of_view {standing : Standing} (worst : 1 < standing.severity)
    (unprivileged : isPrivileged user = false)
    (views : canViewCamera (setStanding db groupId standing) user camera.id = true) :
    HasDirect db user.id camera.id ∨
      camera.isPrivate = true ∧ camera.ownerUserId = some user.id := by
  rw [← contentGate_view,
    @contentGate_iff (setStanding db groupId standing) user camera member] at views
  split at views
  · rename_i hidden
    rcases views with owned | direct
    · exact Or.inr ⟨hidden, owned⟩
    · exact Or.inl (hasDirect_of_level direct)
  · rcases views with privileged | direct | granted
    · rw [unprivileged] at privileged
      cases privileged
    · exact Or.inl (hasDirect_of_level direct)
    · rw [grantedLevel_setStanding present named inGroup, grants_iff] at granted
      omega

/-- Who is not barred from the history after the change was not barred before it. -/
theorem unbarred_of_worse (worse : before.severity < after.severity)
    (kept : ¬Regains db user camera before after)
    (views : canViewCamera (setStanding db groupId after) user camera.id = true)
    (exempt : isPrivileged user = true ∨ ¬Restricted (setStanding db groupId after) camera) :
    isPrivileged user = true ∨ ¬Restricted (setStanding db groupId before) camera := by
  by_cases privileged : isPrivileged user = true
  · exact Or.inl privileged
  · right
    rw [restricted_setStanding present named inGroup] at exempt ⊢
    intro barred
    have unprivileged := Bool.eq_false_iff.mpr privileged
    have atLeast : 1 ≤ before.severity := by
      obtain ⟨active, status⟩ := before
      cases barred
      cases active <;> decide
    have atMost : after.severity ≤ 2 := by
      obtain ⟨active, status⟩ := after
      cases active <;> cases status <;> decide
    have own := own_of_view member present named inGroup (by omega) unprivileged views
    exact kept ⟨by omega, exempt.resolve_left privileged, unprivileged, own⟩

theorem regains_playback (regains : Regains db user camera before after) :
    canPlaybackCamera (setStanding db groupId after) user camera.id = true ∧
      canPlaybackCamera (setStanding db groupId before) user camera.id = false := by
  have barred : before.accessStatus = .restricted := by
    have restricted := regains.restricted
    obtain ⟨active, status⟩ := before
    revert restricted
    cases active <;> cases status <;> decide
  constructor
  · rw [@canPlaybackCamera_iff (setStanding db groupId after) user camera member,
      restricted_setStanding present named inGroup]
    refine ⟨?_, Or.inr regains.lifted⟩
    rw [← contentGate_view, @contentGate_iff (setStanding db groupId after) user camera member,
      hasDirectLevel_view]
    rcases regains.own with direct | ⟨hidden, owned⟩
    · split
      · exact Or.inr direct
      · exact Or.inr (Or.inl direct)
    · rw [if_pos hidden]
      exact Or.inl owned
  · apply Bool.eq_false_iff.mpr
    intro plays
    have exempt := ((@canPlaybackCamera_iff (setStanding db groupId before) user camera member).mp
      plays).2
    rw [restricted_setStanding present named inGroup, regains.unprivileged] at exempt
    rcases exempt with privileged | free
    · cases privileged
    · exact free barred

end

end Standing

/-- Blocking the group of a camera further grants nothing, unless somebody regains the history. -/
theorem blocking_monotone_iff (db : Directory) (user : AuthUser) (camera : Camera)
    (group : CameraGroup) (member : camera ∈ db.cameras) (present : group ∈ db.cameraGroups)
    (inGroup : truthy camera.groupId = some group.id) (before after : Standing)
    (worse : before.severity < after.severity) :
    Within (decisions (setStanding db group.id before) user camera.id)
        (decisions (setStanding db group.id after) user camera.id) ↔
      ¬Regains db user camera before after := by
  constructor
  · intro within regains
    obtain ⟨gained, denied⟩ := regains_playback member present rfl inGroup regains
    have granted := within.playback gained
    change canPlaybackCamera (setStanding db group.id before) user camera.id = true at granted
    rw [denied] at granted
    cases granted
  · intro kept
    have gates : ∀ minLevel,
        contentGate (setStanding db group.id after) user camera.id minLevel = true →
          contentGate (setStanding db group.id before) user camera.id minLevel = true :=
      fun minLevel => gate_worse member present rfl inGroup worse.le minLevel
    have lists : camera.id ∈ getAccessibleCameraIds (setStanding db group.id after) user →
        camera.id ∈ getAccessibleCameraIds (setStanding db group.id before) user :=
      accessible_worse member present rfl inGroup worse.le
    have unbarred := unbarred_of_worse member present rfl inGroup worse kept
    refine ⟨gates .view, gates .control, gates .record, ?_, ?_, ?_⟩
    · intro plays
      obtain ⟨views, exempt⟩ :=
        (@canPlaybackCamera_iff (setStanding db group.id after) user camera member).mp plays
      exact (@canPlaybackCamera_iff (setStanding db group.id before) user camera member).mpr
        ⟨gates .view views, unbarred views exempt⟩
    · intro listed
      exact decide_eq_true (lists (of_decide_eq_true listed))
    · intro listed
      obtain ⟨accessible, exempt⟩ :=
        (@mem_getPlaybackCameraIds (setStanding db group.id after) user camera member).mp
          (of_decide_eq_true listed)
      have views := canViewCamera_of_accessible (setStanding db group.id after) user camera member
        accessible
      exact decide_eq_true
        ((@mem_getPlaybackCameraIds (setStanding db group.id before) user camera member).mpr
          ⟨lists accessible, unbarred views exempt⟩)

def sharedGroup : CameraGroup := ⟨"g".toList, [], true, .restricted⟩

/-- A restriction of an active group takes nothing back. -/
theorem restriction_monotone :
    Within (decisions (setStanding sharedDirectory sharedGroup.id ⟨true, .active⟩)
        ⟨"v".toList, .viewer⟩ sharedCamera.id)
      (decisions (setStanding sharedDirectory sharedGroup.id ⟨true, .restricted⟩)
        ⟨"v".toList, .viewer⟩ sharedCamera.id) ↔
      ¬Regains sharedDirectory ⟨"v".toList, .viewer⟩ sharedCamera ⟨true, .active⟩
        ⟨true, .restricted⟩ :=
  blocking_monotone_iff sharedDirectory ⟨"v".toList, .viewer⟩ sharedCamera sharedGroup
    (List.mem_singleton_self _) (List.mem_singleton_self _) rfl ⟨true, .active⟩ ⟨true, .restricted⟩
    (by decide)

/-- The suspension of a restricted group gives the history back to one with a direct permission. -/
theorem suspension_regains :
    ¬ ∀ (db : Directory) (user : AuthUser) (camera : Camera) (group : CameraGroup)
      (before after : Standing), camera ∈ db.cameras → group ∈ db.cameraGroups →
        truthy camera.groupId = some group.id → before.severity < after.severity →
          Within (decisions (setStanding db group.id before) user camera.id)
            (decisions (setStanding db group.id after) user camera.id) := by
  intro always
  have within := always sharedDirectory ⟨"v".toList, .viewer⟩ sharedCamera sharedGroup
    ⟨true, .restricted⟩ ⟨true, .suspended⟩ (List.mem_singleton_self _) (List.mem_singleton_self _)
    rfl (by decide)
  have back := within.playback (by decide +kernel)
  exact absurd back (by decide +kernel)

end DracVms.AccessControl
