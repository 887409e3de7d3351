import DracVms.AccessControl.AccessControl
import DracVms.Library.Runs

namespace DracVms.OwnerTransfer

open List KeyedList

open Json (Text)
open Database AccessControl
open KeyedList (updateAt)

/-! The transaction. -/

def isDirect (userId cameraId : Text) (perm : CameraPermission) : Bool :=
  perm.userId = userId && perm.cameraId = some cameraId

/-- `findFirst`, and then `update` or `create`. -/
def grantAdmin (userId cameraId : Text) : List CameraPermission → List CameraPermission
  | [] => [⟨userId, some cameraId, none, .admin⟩]
  | perm :: rest =>
    if isDirect userId cameraId perm && perm.groupId.isNone then { perm with level := .admin } :: rest
    else perm :: grantAdmin userId cameraId rest

/-- What the owner that was read had of its own is taken away. -/
def revokeDirect (previous : Option Text) (cameraId : Text) (perms : List CameraPermission) :
    List CameraPermission :=
  match truthy previous with
  | none => perms
  | some userId => perms.filter fun perm => !isDirect userId cameraId perm

def Camera.owned (owner : Text) (camera : Camera) : Camera := { camera with ownerUserId := some owner }

theorem mem_grantAdmin {userId cameraId : Text} {perms : List CameraPermission}
    {perm : CameraPermission} (listed : perm ∈ grantAdmin userId cameraId perms) :
    isDirect userId cameraId perm = true ∨ perm ∈ perms := by
  induction perms with
  | nil =>
    rw [mem_singleton.mp listed]
    simp [isDirect]
  | cons first rest ih =>
    rw [grantAdmin] at listed
    split at listed
    · rename_i found
      rw [Bool.and_eq_true] at found
      rcases mem_cons.mp listed with same | later
      · rw [same]
        exact Or.inl found.1
      · exact Or.inr (mem_cons_of_mem _ later)
    · rcases mem_cons.mp listed with same | later
      · rw [same]
        exact Or.inr mem_cons_self
      · exact (ih later).imp_right (mem_cons_of_mem _)

theorem isDirect_iff (userId cameraId : Text) (perm : CameraPermission) :
    isDirect userId cameraId perm = true ↔ perm.userId = userId ∧ perm.cameraId = some cameraId := by
  rw [isDirect, Bool.and_eq_true, decide_eq_true_eq, decide_eq_true_eq]

variable {previous : Option Text}

theorem mem_revokeDirect {cameraId : Text} {perms : List CameraPermission} {perm : CameraPermission}
    (listed : perm ∈ revokeDirect previous cameraId perms) : perm ∈ perms := by
  unfold revokeDirect at listed
  split at listed
  · exact listed
  · exact (mem_filter.mp listed).1

/-- The database after the transaction, where the camera is there to be updated. -/
def transferOwner (db : Directory) (cameraId : Text) (previous : Option Text) (next : Text) :
    Option Directory :=
  if present : ∃ camera ∈ db.cameras, camera.id = cameraId then
    some {
      users := db.users
      cameraGroups := db.cameraGroups
      cameras := updateAt Camera.id db.cameras cameraId (Camera.owned next)
      cameraPermissions :=
        grantAdmin next cameraId (revokeDirect previous cameraId db.cameraPermissions)
      userIds := db.userIds
      groupIds := db.groupIds
      cameraIds := by
        rw [map_updateAt Camera.id _ _ (Camera.owned next) Camera.id fun _ => rfl]
        exact db.cameraIds
      named := by
        intro camera listed
        obtain ⟨old, here, ⟨-, rfl⟩ | ⟨-, rfl⟩⟩ := of_mem_updateAt listed
        · exact db.named camera here
        · exact db.named old here
      permitted := by
        intro perm listed id named
        have known : ∃ camera ∈ db.cameras, camera.id = id := by
          rcases mem_grantAdmin listed with direct | old
          · rw [isDirect_iff, named] at direct
            cases direct.2
            exact present
          · exact db.permitted perm (mem_revokeDirect old) id named
        obtain ⟨camera, here, same⟩ := known
        have ids := map_updateAt Camera.id db.cameras cameraId (Camera.owned next)
          Camera.id fun _ => rfl
        have kept : id ∈ (updateAt Camera.id db.cameras cameraId (Camera.owned next)).map
            Camera.id := by
          rw [ids, ← same]
          exact mem_map_of_mem here
        exact mem_map.mp kept }
  else none

/-- Whose rows are among those that are left: those of the new owner, and those of anybody but the
owner that was read. -/
theorem direct_grantAdmin (next userId cameraId : Text) (perms : List CameraPermission) :
    (∃ perm ∈ grantAdmin next cameraId perms, isDirect userId cameraId perm = true) ↔
      userId = next ∨ ∃ perm ∈ perms, isDirect userId cameraId perm = true := by
  induction perms with
  | nil =>
    constructor
    · rintro ⟨perm, listed, direct⟩
      rw [mem_singleton.mp listed, isDirect_iff] at direct
      exact Or.inl direct.1.symm
    · rintro (rfl | ⟨perm, listed, -⟩)
      · exact ⟨_, mem_singleton_self _, (isDirect_iff _ _ _).mpr ⟨rfl, rfl⟩⟩
      · cases listed
  | cons first rest ih =>
    rw [grantAdmin]
    split
    · rename_i found
      rw [Bool.and_eq_true, isDirect_iff] at found
      have same : isDirect userId cameraId { first with level := .admin } =
          isDirect userId cameraId first := rfl
      rw [exists_mem_cons_iff, exists_mem_cons_iff, same]
      constructor
      · exact Or.inr
      · rintro (rfl | direct)
        · exact Or.inl ((isDirect_iff _ _ _).mpr found.1)
        · exact direct
    · rw [exists_mem_cons_iff, ih, exists_mem_cons_iff]
      exact or_left_comm

theorem hasDirect_iff (db : Directory) (userId cameraId : Text) : HasDirect db userId cameraId ↔
      ∃ perm ∈ db.cameraPermissions, isDirect userId cameraId perm = true := by
  simp only [HasDirect, isDirect_iff]

theorem direct_revokeDirect (previous : Option Text) (userId cameraId : Text)
    (perms : List CameraPermission) :
    (∃ perm ∈ revokeDirect previous cameraId perms, isDirect userId cameraId perm = true) ↔
      truthy previous ≠ some userId ∧ ∃ perm ∈ perms, isDirect userId cameraId perm = true := by
  unfold revokeDirect
  cases read : truthy previous with
  | none => simp
  | some other =>
    simp only [mem_filter, Bool.not_eq_true', ne_eq, Option.some.injEq]
    constructor
    · rintro ⟨perm, ⟨listed, spared⟩, direct⟩
      refine ⟨?_, perm, listed, direct⟩
      intro same
      rw [same, direct] at spared
      cases spared
    · rintro ⟨apart, perm, listed, direct⟩
      refine ⟨perm, ⟨listed, ?_⟩, direct⟩
      cases taken : isDirect other cameraId perm with
      | false => rfl
      | true =>
        rw [isDirect_iff] at taken direct
        exact absurd (taken.1.symm.trans direct.1) apart

theorem transferOwner_direct {db after : Directory} {cameraId next : Text}
    (committed : transferOwner db cameraId previous next = some after) (userId : Text) :
    HasDirect after userId cameraId ↔
      userId = next ∨ truthy previous ≠ some userId ∧ HasDirect db userId cameraId := by
  unfold transferOwner at committed
  split at committed
  · cases committed
    rw [hasDirect_iff, hasDirect_iff, direct_grantAdmin, direct_revokeDirect]
  · cases committed

theorem transferOwner_cameras {db after : Directory} {cameraId next : Text}
    (committed : transferOwner db cameraId previous next = some after) :
    after.cameras = updateAt Camera.id db.cameras cameraId (Camera.owned next) := by
  unfold transferOwner at committed
  split at committed
  · cases committed
    rfl
  · cases committed

/-! The runs, of transfers of one camera. -/

/-- A transfer that has read its camera, and then the account of the new owner. -/
structure Transfer where
  previous : Option Text
  next : Text
  checked : Bool

structure System where
  db : Directory
  transfers : List Transfer
  /-- Everybody who has owned the camera. -/
  owners : List Text

inductive Step where
  | read (next : Text)
  | check (index : ℕ) (isActive : Bool)
  | commit (index : ℕ)
  /-- A transfer fails before its transaction, or the transaction is rolled back. -/
  | fail (index : ℕ)

variable (cameraId : Text)

def commit (s : System) (index : ℕ) (transfer : Transfer) : Option System :=
  if transfer.checked then
    (transferOwner s.db cameraId transfer.previous transfer.next).map fun db => {
      db := db
      transfers := s.transfers.eraseIdx index
      owners := transfer.next :: s.owners }
  else none

def step (s : System) : Step → Option System
  | .read next =>
    (s.db.cameraAt cameraId).map fun camera =>
      if camera.isPrivate then
        { s with transfers := s.transfers ++ [⟨camera.ownerUserId, next, false⟩] }
      else s
  | .check index isActive =>
    s.transfers[index]?.map fun transfer =>
      if isActive && transfer.previous ≠ some transfer.next then
        { s with transfers := s.transfers.set index { transfer with checked := true } }
      else { s with transfers := s.transfers.eraseIdx index }
  | .commit index => s.transfers[index]?.bind (commit cameraId s index)
  | .fail index => some { s with transfers := s.transfers.eraseIdx index }

/-! The old owners. -/

/-- A grant of its own before the run, to one who was not the owner. -/
def Independent (start : Directory) (userId : Text) : Prop :=
  HasDirect start userId cameraId ∧
    ∀ camera ∈ start.cameras, camera.id = cameraId → camera.ownerUserId ≠ some userId

/-- There is one owner, and the others who have owned the camera have no access to its content. -/
def Revoked (start : Directory) (s : System) : Prop :=
  ∃ camera ∈ s.db.cameras, camera.id = cameraId ∧ camera.isPrivate = true ∧
    ∃ owner, camera.ownerUserId = some owner ∧
      ∀ user : AuthUser, user.id ∈ s.owners → user.id ≠ owner →
        ¬Independent cameraId start user.id →
          canViewCamera s.db user cameraId = false ∧ canControlCamera s.db user cameraId = false

/-- The transaction takes the place of the owner that its transfer has read, or finds its own user
there, or one without a grant that came with the camera. -/
def Orderly (start : Directory) (s : System) : Step → Prop
  | .commit index => ∀ transfer ∈ s.transfers[index]?, ∀ camera ∈ s.db.cameras,
      camera.id = cameraId → ∀ owner ∈ camera.ownerUserId,
        truthy transfer.previous = some owner ∨ transfer.next = owner ∨
          ¬HasDirect s.db owner cameraId ∨ Independent cameraId start owner
  | _ => True

/-- Who has a grant had it before or is the owner. -/
structure Known (start : Directory) (s : System) (camera : Camera) (owner : Text) : Prop where
  listed : camera ∈ s.db.cameras
  named : camera.id = cameraId
  hidden : camera.isPrivate = true
  owned : camera.ownerUserId = some owner
  former : owner ∈ s.owners
  granted : ∀ userId, HasDirect s.db userId cameraId →
    Independent cameraId start userId ∨ userId = owner

variable {cameraId} {start : Directory} {camera : Camera}

theorem denied_iff {db : Directory} (listed : camera ∈ db.cameras)
    (hidden : camera.isPrivate = true) (user : AuthUser) (other : camera.ownerUserId ≠ some user.id) :
    canViewCamera db user camera.id = false ∧ canControlCamera db user camera.id = false ↔
      ¬HasDirect db user.id camera.id := by
  have views := canViewCamera_iff db user camera listed
  rw [if_pos hidden] at views
  constructor
  · rintro ⟨denied, -⟩ direct
    rw [views.mpr (Or.inr direct)] at denied
    cases denied
  · intro none_
    have denied : ¬canViewCamera db user camera.id = true := by
      rw [views]
      exact fun either => either.elim other none_
    refine ⟨Bool.eq_false_iff.mpr denied, Bool.eq_false_iff.mpr ?_⟩
    exact fun controls => denied (canViewCamera_of_control db user camera listed hidden controls)

theorem revoked_granted {s : System} {owner : Text} (listed : camera ∈ s.db.cameras)
    (named : camera.id = cameraId) (hidden : camera.isPrivate = true)
    (owned : camera.ownerUserId = some owner) :
    Revoked cameraId start s ↔ ∀ userId ∈ s.owners, userId ≠ owner →
      ¬Independent cameraId start userId → ¬HasDirect s.db userId cameraId := by
  subst named
  constructor
  · rintro ⟨same, here, id, -, holder, held, denied⟩ userId former other none_
    have equal := eq_of_key s.db.cameraIds here listed id
    subst equal
    rw [owned] at held
    cases held
    apply (denied_iff listed hidden ⟨userId, .viewer⟩ _).mp (denied ⟨userId, .viewer⟩ former other
      none_)
    rw [owned]
    exact fun equal => other (Option.some.inj equal).symm
  · intro gone
    refine ⟨camera, listed, rfl, hidden, owner, owned, ?_⟩
    intro user former other none_
    apply (denied_iff listed hidden user _).mpr (gone user.id former other none_)
    rw [owned]
    exact fun equal => other (Option.some.inj equal).symm

theorem Known.revoked {s : System} {owner : Text} (known : Known cameraId start s camera owner) :
    Revoked cameraId start s := by
  rw [revoked_granted known.listed known.named known.hidden known.owned]
  intro userId _ other none_ direct
  exact (known.granted userId direct).elim none_ other

/-- Where the transaction leaves no grant behind, and what it makes of the owner. -/
theorem Known.commit {s t : System} {owner : Text} (known : Known cameraId start s camera owner)
    {index : ℕ} {transfer : Transfer} (located : s.transfers[index]? = some transfer)
    (taken : commit cameraId s index transfer = some t) :
    (Revoked cameraId start t ↔ Orderly cameraId start s (.commit index)) ∧
      (Orderly cameraId start s (.commit index) →
        Known cameraId start t (Camera.owned transfer.next camera) transfer.next) := by
  unfold OwnerTransfer.commit at taken
  split at taken
  · obtain ⟨db, committed, rfl⟩ := Option.map_eq_some_iff.mp taken
    have direct := transferOwner_direct committed
    have moved : Camera.owned transfer.next camera ∈ db.cameras := by
      rw [transferOwner_cameras committed, ← known.named]
      exact (mem_updateAt s.db.cameraIds known.listed _ _).mpr (Or.inl rfl)
    have orderly_iff : Orderly cameraId start s (.commit index) ↔
        (truthy transfer.previous = some owner ∨ transfer.next = owner ∨
          ¬HasDirect s.db owner cameraId ∨ Independent cameraId start owner) := by
      constructor
      · intro orderly
        exact orderly transfer located camera known.listed known.named owner known.owned
      · intro holds other found row here id holder held
        cases located.symm.trans found
        have equal := eq_of_key s.db.cameraIds here known.listed (id.trans known.named.symm)
        rw [equal, known.owned] at held
        cases held
        exact holds
    have keeps : (truthy transfer.previous = some owner ∨ transfer.next = owner ∨
        ¬HasDirect s.db owner cameraId ∨ Independent cameraId start owner) →
        ∀ userId, HasDirect db userId cameraId →
          Independent cameraId start userId ∨ userId = transfer.next := by
      intro holds userId granted
      rcases (direct userId).mp granted with own | ⟨spared, before⟩
      · exact Or.inr own
      · rcases known.granted userId before with independent | same
        · exact Or.inl independent
        · subst same
          rcases holds with read | same | none_ | independent
          · exact absurd read spared
          · exact Or.inr same.symm
          · exact absurd before none_
          · exact Or.inl independent
    have after : (Orderly cameraId start s (.commit index) →
        Known cameraId start ⟨db, s.transfers.eraseIdx index, transfer.next :: s.owners⟩
          (Camera.owned transfer.next camera) transfer.next) := by
      intro orderly
      exact ⟨moved, known.named, known.hidden, rfl, mem_cons_self, keeps (orderly_iff.mp orderly)⟩
    refine ⟨⟨?_, fun orderly => (after orderly).revoked⟩, after⟩
    intro revoked
    have named : (Camera.owned transfer.next camera).id = cameraId := known.named
    have hidden : (Camera.owned transfer.next camera).isPrivate = true := known.hidden
    have gone := (revoked_granted moved named hidden rfl).mp revoked
    rw [orderly_iff]
    by_contra against
    rw [not_or, not_or, not_or, not_not] at against
    obtain ⟨unread, other, granted, dependent⟩ := against
    apply gone owner (mem_cons_of_mem _ known.former) (fun same => other same.symm) dependent
    exact (direct owner).mpr (Or.inr ⟨unread, granted⟩)
  · cases taken

/-- The owners that a camera has had are cut off, all along a run, exactly when the run is
orderly. -/
theorem revoked_iff (start : Directory) (camera : Camera) (owner : Text)
    (member : camera ∈ start.cameras) (hidden : camera.isPrivate = true)
    (owned : camera.ownerUserId = some owner) (steps : List Step) (s : System)
    (reached : Runs.run (step camera.id) ⟨start, [], [owner]⟩ steps = some s) :
    (∀ n t, Runs.run (step camera.id) ⟨start, [], [owner]⟩ (steps.take n) = some t →
      Revoked camera.id start t) ↔
      Runs.Allowed (step camera.id) (Orderly camera.id start) ⟨start, [], [owner]⟩ steps := by
  have starts : ∃ row holder, Known camera.id start ⟨start, [], [owner]⟩ row holder := by
    refine ⟨camera, owner, member, rfl, hidden, owned, mem_singleton_self owner, ?_⟩
    intro userId direct
    by_cases same : userId = owner
    · exact Or.inr same
    · left
      refine ⟨direct, ?_⟩
      intro row here id held
      have equal := eq_of_key start.cameraIds here member id
      rw [equal, owned] at held
      exact same (Option.some.inj held).symm
  have holds : ∀ t, (∃ row holder, Known camera.id start t row holder) →
      Revoked camera.id start t := by
    intro t known
    obtain ⟨row, holder, known⟩ := known
    exact known.revoked
  apply Runs.prefixes_iff_kept (step camera.id) holds ⟨start, [], [owner]⟩ s steps _ starts reached
  rintro s a - t ⟨row, holder, known⟩ taken
  have same : t.db = s.db → t.owners = s.owners → Orderly camera.id start s a →
      (Revoked camera.id start t ↔ Orderly camera.id start s a) ∧ (Orderly camera.id start s a →
        ∃ row holder, Known camera.id start t row holder) := by
    intro db owners orderly
    have later : Known camera.id start t row holder := by
      refine ⟨?_, known.named, known.hidden, known.owned, ?_, ?_⟩
      · rw [db]
        exact known.listed
      · rw [owners]
        exact known.former
      · rw [db]
        exact known.granted
    exact ⟨⟨fun _ => orderly, fun _ => later.revoked⟩, fun _ => ⟨row, holder, later⟩⟩
  cases a with
  | read next =>
    obtain ⟨read, -, rfl⟩ := Option.map_eq_some_iff.mp taken
    exact same (by split <;> rfl) (by split <;> rfl) trivial
  | check index isActive =>
    obtain ⟨transfer, -, rfl⟩ := Option.map_eq_some_iff.mp taken
    exact same (by split <;> rfl) (by split <;> rfl) trivial
  | fail index =>
    cases taken
    exact same rfl rfl trivial
  | commit index =>
    obtain ⟨transfer, located, committed⟩ := Option.bind_eq_some_iff.mp taken
    obtain ⟨exact_, later⟩ := known.commit located committed
    exact ⟨exact_, fun orderly => ⟨_, _, later orderly⟩⟩

/-! One transfer after the other, and two at once. -/

instance (db : Directory) (userId cameraId : Text) : Decidable (HasDirect db userId cameraId) :=
  inferInstanceAs (Decidable (∃ perm ∈ db.cameraPermissions, _))

instance (cameraId : Text) (start : Directory) (userId : Text) :
    Decidable (Independent cameraId start userId) :=
  inferInstanceAs (Decidable (_ ∧ ∀ camera ∈ start.cameras, _))

/-- The camera `k` of the client `a`. -/
def porch : Camera where
  id := ['k']
  name := ['k']
  status := .online
  lastSeenAt := none
  recordingEnabled := false
  groupId := none
  isPrivate := true
  ownerUserId := some ['a']
  site := none
  area := none
  createdAt := 0

def house : Directory where
  users := [⟨['a'], .viewer, true⟩, ⟨['b'], .viewer, true⟩, ⟨['c'], .viewer, true⟩]
  cameraGroups := []
  cameras := [porch]
  cameraPermissions := [⟨['a'], some ['k'], none, .admin⟩]
  userIds := by decide
  groupIds := by decide
  cameraIds := by decide
  named := by decide
  permitted := by
    intro perm listed id named
    rw [mem_singleton.mp listed] at named
    cases named
    exact ⟨porch, mem_singleton_self porch, rfl⟩

def oneByOne : List Step :=
  [.read ['b'], .check 0 true, .commit 0, .read ['c'], .check 0 true, .commit 0]

def atOnce : List Step :=
  [.read ['b'], .read ['c'], .check 0 true, .check 1 true, .commit 0, .commit 0]

theorem oneByOne_revoked :
    (∀ n t, Runs.run (step ['k']) ⟨house, [], [['a']]⟩ (oneByOne.take n) = some t →
      Revoked ['k'] house t) ↔
      Runs.Allowed (step ['k']) (Orderly ['k'] house) ⟨house, [], [['a']]⟩ oneByOne :=
  revoked_iff house porch ['a'] (mem_singleton_self porch) rfl rfl oneByOne
    ((Runs.run (step ['k']) ⟨house, [], [['a']]⟩ oneByOne).get (by decide +kernel))
    (Option.some_get _).symm

/-- The one who has been overtaken keeps the grant that came with the camera. -/
theorem atOnce_leaks : ¬∀ (steps : List Step) (s : System),
    Runs.run (step ['k']) ⟨house, [], [['a']]⟩ steps = some s → s.transfers = [] →
      Revoked ['k'] house s := by
  intro always
  obtain ⟨camera, listed, -, -, owner, owned, denied⟩ := always atOnce
    ((Runs.run (step ['k']) ⟨house, [], [['a']]⟩ atOnce).get (by decide +kernel))
    (Option.some_get _).symm (by decide +kernel)
  have last : ∀ camera ∈ ((Runs.run (step ['k']) ⟨house, [], [['a']]⟩ atOnce).get
      (by decide +kernel)).db.cameras, camera.ownerUserId = some ['c'] := by decide +kernel
  rw [last camera listed] at owned
  cases owned
  have blind := (denied ⟨['b'], .viewer⟩ (by decide +kernel) (by decide) (by decide +kernel)).1
  exact absurd blind (by decide +kernel)

end DracVms.OwnerTransfer
