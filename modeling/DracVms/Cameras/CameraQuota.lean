import DracVms.Database.Directory
import DracVms.Library.JsString
import DracVms.Library.Runs

namespace DracVms.CameraQuota

open Json (Text)
open Database (CameraPermissionLevel Instant truthy)
open KeyedList (lookup)

/-! The ceiling of the installation. -/

inductive Motivo where
  | semTeto
  | dentroDoTeto
  | tetoAtingido
  | acimaDoTeto
  deriving DecidableEq

structure DecisaoDeTeto where
  permitido : Bool
  /-- Nothing where there is no ceiling. -/
  vagas : Option ℤ
  motivo : Motivo

def podeCadastrarCamera (cadastradas : ℤ) (teto : Option ℤ) (quantidade : ℤ) : DecisaoDeTeto :=
  let atual := max 0 cadastradas
  let pedidas := max 1 quantidade
  match teto with
  | none => ⟨true, none, .semTeto⟩
  | some limite =>
    let vagas := max 0 (limite - atual)
    if limite < 0 then ⟨true, none, .semTeto⟩
    else if atual > limite then ⟨false, some 0, .acimaDoTeto⟩
    else if pedidas > vagas then ⟨false, some vagas, .tetoAtingido⟩
    else ⟨true, some vagas, .dentroDoTeto⟩

/-- The value of a setting, where `number` reads a text as a finite number. -/
def paraInteiro (number : Text → Option ℚ) (valor : Option Text) : Option ℕ :=
  (valor.filter fun text => JsString.trim text ≠ []).bind fun text =>
    (number text).bind fun n => if 0 ≤ n then some ⌊n⌋.toNat else none

theorem podeCadastrarCamera_room (cadastradas limite : ℕ)
    (permitido : (podeCadastrarCamera cadastradas (some limite) 1).permitido = true) :
    cadastradas + 1 ≤ limite := by
  simp only [podeCadastrarCamera] at permitido
  split at permitido
  · omega
  · split at permitido
    · cases permitido
    · split at permitido
      · cases permitido
      · omega

/-! The group of the client. -/

structure CameraPermission where
  userId : Text
  groupId : Option Text
  level : CameraPermissionLevel
  createdAt : Instant
  deriving DecidableEq

def prioridade : CameraPermissionLevel → ℕ
  | .admin => 4
  | .record => 3
  | .control => 2
  | .view => 1

/-- The highest level wins, and of two the older. -/
def melhorVinculo (melhor : Option CameraPermission) (v : CameraPermission) :
    Option CameraPermission :=
  if (truthy v.groupId).isNone then melhor
  else match melhor with
    | none => some v
    | some atual =>
      if prioridade v.level > prioridade atual.level then some v
      else if prioridade v.level = prioridade atual.level && v.createdAt < atual.createdAt then
        some v
      else some atual

/-- Nothing is no permission: there is no group to read a quota from. -/
def escolherGrupoDoCliente (vinculos : List CameraPermission) : Option Text :=
  (vinculos.foldl melhorVinculo none).bind CameraPermission.groupId

/-! The tables. -/

structure CameraGroup where
  id : Text
  maxPrivateCameras : ℤ
  deriving DecidableEq

structure Camera where
  id : Text
  isPrivate : Bool
  ownerUserId : Option Text
  deriving DecidableEq

structure Tables where
  /-- The setting `cloud.maxCameras`. -/
  maxCameras : Option Text
  cameras : List Camera
  cameraGroups : List CameraGroup
  cameraPermissions : List CameraPermission
  deriving DecidableEq

namespace Tables

variable (tables : Tables)

def vinculosDeGrupo (userId : Text) : List CameraPermission :=
  tables.cameraPermissions.filter fun perm => perm.userId = userId && perm.groupId.isSome

/-- How many private cameras the client has. -/
def used (owner : Text) : ℕ :=
  tables.cameras.countP fun camera => camera.isPrivate && camera.ownerUserId = some owner

def limit (groupId : Option Text) : ℕ :=
  ((groupId.bind fun id => lookup CameraGroup.id tables.cameraGroups id).elim 0
    CameraGroup.maxPrivateCameras).toNat

end Tables

/-! A creation, from read to read. -/

inductive Request where
  | create
  | createMine (owner : Text) (groupId : Option Text)
  deriving DecidableEq

/-- What a creation that has passed the ceiling has read. -/
structure Count where
  maxCameras : Option ℕ
  cadastradas : ℕ
  permitido : (podeCadastrarCamera cadastradas (maxCameras.map fun n => n) 1).permitido = true
  deriving DecidableEq

/-- What a creation that has passed the quota of its client has read. -/
structure Quota where
  used : ℕ
  limit : ℕ
  vaga : used < limit
  deriving DecidableEq

inductive Creation where
  | asked (request : Request)
  | policyRead (request : Request) (maxCameras : Option ℕ)
  | counted (request : Request) (count : Count)
  /-- The group that the quota is asked with. -/
  | chosen (owner : Text) (count : Count) (groupId : Option Text)
  /-- The two queries of the quota, which run together. -/
  | reading (owner : Text) (count : Count) (groupId : Option Text) (used limit : Option ℕ)
  | granted (owner : Text) (count : Count) (quota : Quota)
  deriving DecidableEq

inductive Query where
  | policy
  | cameras
  | bindings
  | group
  | used
  | limit
  | quota
  deriving DecidableEq

inductive Outcome where
  | goesOn (creation : Creation)
  | refused

variable (number : Text → Option ℚ)

def Creation.perform (tables : Tables) : Creation → Query → Option Outcome
  | .asked request, .policy =>
    some (.goesOn (.policyRead request (paraInteiro number tables.maxCameras)))
  | .policyRead request maxCameras, .cameras =>
    some (
      if permitido : (podeCadastrarCamera tables.cameras.length
          (maxCameras.map fun n => n) 1).permitido = true then
        .goesOn (.counted request ⟨maxCameras, tables.cameras.length, permitido⟩)
      else .refused)
  | .counted (.createMine owner groupId) count, .bindings =>
    some (.goesOn (.chosen owner count
      ((escolherGrupoDoCliente (tables.vinculosDeGrupo owner)).or groupId)))
  | .chosen owner count groupId, .group =>
    some (.goesOn (.reading owner count
      ((truthy groupId).or (escolherGrupoDoCliente (tables.vinculosDeGrupo owner))) none none))
  | .reading owner count groupId none limit, .used =>
    some (.goesOn (.reading owner count groupId (some (tables.used owner)) limit))
  | .reading owner count groupId used none, .limit =>
    some (.goesOn (.reading owner count groupId used (some (tables.limit groupId))))
  | .reading owner count _ (some used) (some limit), .quota =>
    some (if vaga : used < limit then .goesOn (.granted owner count ⟨used, limit, vaga⟩)
      else .refused)
  | _, _ => none

/-- The camera that the creation writes, once it has nothing more to ask. -/
def Creation.camera (id : Text) : Creation → Option Camera
  | .counted .create _ => some ⟨id, false, none⟩
  | .granted owner _ _ => some ⟨id, true, some owner⟩
  | _ => none

/-! The runs. -/

structure System where
  tables : Tables
  creations : List Creation
  deriving DecidableEq

inductive Step where
  | request (request : Request)
  | query (index : ℕ) (query : Query)
  | insert (index : ℕ) (id : Text)
  /-- A creation fails between two queries. -/
  | fail (index : ℕ)
  /-- Anything else that writes the tables. -/
  | other (tables : Tables)

def step (s : System) : Step → Option System
  | .request request => some { s with creations := s.creations ++ [.asked request] }
  | .query index query =>
    (s.creations[index]?.bind fun creation => creation.perform number s.tables query).map
      fun outcome => match outcome with
      | .goesOn creation => { s with creations := s.creations.set index creation }
      | .refused => { s with creations := s.creations.eraseIdx index }
  | .insert index id =>
    (s.creations[index]?.bind (Creation.camera id)).map fun camera => {
      tables := { s.tables with cameras := s.tables.cameras ++ [camera] }
      creations := s.creations.eraseIdx index }
  | .fail index => some { s with creations := s.creations.eraseIdx index }
  | .other tables => some { s with tables := tables }

/-! The contract. -/

def Tables.WithinCeiling (tables : Tables) : Prop :=
  ∀ teto ∈ paraInteiro number tables.maxCameras, tables.cameras.length ≤ teto

/-- Who is bound to no group has no private camera. -/
def Tables.WithinQuota (tables : Tables) (owner : Text) : Prop :=
  tables.used owner ≤ tables.limit (escolherGrupoDoCliente (tables.vinculosDeGrupo owner))

/-- What holds of the tables after a creation has written its camera. -/
def Contracted (tables : Tables) (camera : Camera) : Prop :=
  tables.WithinCeiling number ∧
    ∀ owner, camera.isPrivate = true → camera.ownerUserId = some owner → tables.WithinQuota owner

/-- Every creation that completes in the run leaves the tables as it should. -/
def Leaves (start : System) (steps : List Step) (good : Tables → Camera → Prop) : Prop :=
  ∀ (n : ℕ) (s t : System) (index : ℕ) (id : Text),
    Runs.run (step number) start (steps.take n) = some s → steps[n]? = some (.insert index id) →
      step number s (.insert index id) = some t →
      ∃ camera, t.tables.cameras = s.tables.cameras ++ [camera] ∧ good t.tables camera

/-- Under a ceiling, no camera has been added since the count, and the ceiling has not sunk. -/
def Count.Stands (tables : Tables) (count : Count) : Prop :=
  ∀ teto ∈ paraInteiro number tables.maxCameras,
    tables.cameras.length ≤ count.cadastradas ∧ ∃ read ∈ count.maxCameras, read ≤ teto

/-- The client is bound to a group that allows no less than was read, and has been given no private
camera since the count. -/
def Quota.Stands (tables : Tables) (owner : Text) (quota : Quota) : Prop :=
  tables.used owner ≤ quota.used ∧
    ∃ groupId ∈ escolherGrupoDoCliente (tables.vinculosDeGrupo owner),
      quota.limit ≤ tables.limit (some groupId)

def Creation.Stands (tables : Tables) : Creation → Prop
  | .counted _ count => count.Stands number tables
  | .granted owner count quota => count.Stands number tables ∧ quota.Stands tables owner
  | _ => True

/-- What a creation has read still stands when it writes. -/
def Orderly (s : System) : Step → Prop
  | .insert index _ => ∀ creation ∈ s.creations[index]?, creation.Stands number s.tables
  | _ => True

theorem Count.withinCeiling {number : Text → Option ℚ} {tables : Tables} {count : Count}
    (stands : count.Stands number tables) (camera : Camera) :
    ({ tables with cameras := tables.cameras ++ [camera] } : Tables).WithinCeiling number := by
  intro teto inForce
  obtain ⟨cameras, read, known, low⟩ := stands teto inForce
  have room : count.cadastradas + 1 ≤ read := by
    have permitido := count.permitido
    rw [Option.mem_def.mp known] at permitido
    exact podeCadastrarCamera_room count.cadastradas read permitido
  have one : (tables.cameras ++ [camera]).length = tables.cameras.length + 1 := by simp
  change (tables.cameras ++ [camera]).length ≤ teto
  omega

theorem used_append (tables : Tables) (camera : Camera) (owner : Text) :
    ({ tables with cameras := tables.cameras ++ [camera] } : Tables).used owner ≤
      tables.used owner + 1 := by
  have one : List.countP (fun camera => camera.isPrivate && camera.ownerUserId = some owner)
      [camera] ≤ 1 := List.countP_le_length
  simp only [Tables.used, List.countP_append]
  omega

theorem Quota.withinQuota {tables : Tables} {owner : Text} {quota : Quota}
    (stands : quota.Stands tables owner) (camera : Camera) :
    ({ tables with cameras := tables.cameras ++ [camera] } : Tables).WithinQuota owner := by
  obtain ⟨few, groupId, bound, allows⟩ := stands
  have more := used_append tables camera owner
  have room := quota.vaga
  have allowed : ({ tables with cameras := tables.cameras ++ [camera] } : Tables).limit
      (escolherGrupoDoCliente (tables.vinculosDeGrupo owner)) = tables.limit (some groupId) := by
    rw [Option.mem_def.mp bound]
    rfl
  change _ ≤ ({ tables with cameras := tables.cameras ++ [camera] } : Tables).limit
    (escolherGrupoDoCliente (tables.vinculosDeGrupo owner))
  omega

theorem insert_contracted {tables : Tables} {creation : Creation} {id : Text} {camera : Camera}
    (stands : creation.Stands number tables) (written : creation.camera id = some camera) :
    Contracted number { tables with cameras := tables.cameras ++ [camera] } camera := by
  cases creation with
  | counted request count =>
    cases request with
    | create =>
      cases written
      refine ⟨Count.withinCeiling stands _, ?_⟩
      intro owner hidden
      cases hidden
    | createMine owner groupId => cases written
  | granted owner count quota =>
    cases written
    refine ⟨Count.withinCeiling stands.1 _, ?_⟩
    intro other _ same
    cases same
    exact Quota.withinQuota stands.2 _
  | asked request | policyRead request maxCameras | chosen owner count groupId
  | reading owner count groupId used limit => cases written

/-- In a run in which what every creation has read still stands when it writes, no camera is written
that breaks the contract. -/
theorem quotas_kept (start : System) (steps : List Step)
    (orderly : Runs.Allowed (step number) (Orderly number) start steps) :
    Leaves number start steps (Contracted number) := by
  intro n s t index id reached next taken
  obtain ⟨camera, ready, rfl⟩ := Option.map_eq_some_iff.mp taken
  obtain ⟨creation, located, written⟩ := Option.bind_eq_some_iff.mp ready
  have stands := orderly.at_step (step number) reached next creation located
  exact ⟨camera, rfl, insert_contracted number stands written⟩

/-! Two creations at once, and the group of somebody else. -/

instance (tables : Tables) : Decidable (tables.WithinCeiling number) :=
  inferInstanceAs (Decidable (∀ teto ∈ paraInteiro number tables.maxCameras, _))

instance (tables : Tables) (owner : Text) : Decidable (tables.WithinQuota owner) :=
  inferInstanceAs (Decidable (_ ≤ _))

instance (tables : Tables) (count : Count) : Decidable (count.Stands number tables) :=
  inferInstanceAs (Decidable (∀ teto ∈ paraInteiro number tables.maxCameras,
    _ ∧ ∃ read ∈ count.maxCameras, read ≤ teto))

instance (tables : Tables) (owner : Text) (quota : Quota) :
    Decidable (quota.Stands tables owner) :=
  inferInstanceAs (Decidable (_ ∧
    ∃ groupId ∈ escolherGrupoDoCliente (tables.vinculosDeGrupo owner), _))

instance (tables : Tables) : ∀ creation : Creation, Decidable (creation.Stands number tables)
  | .asked _ | .policyRead _ _ | .chosen _ _ _ | .reading _ _ _ _ _ => isTrue trivial
  | .counted _ count => inferInstanceAs (Decidable (count.Stands number tables))
  | .granted owner count quota =>
    inferInstanceAs (Decidable (count.Stands number tables ∧ quota.Stands tables owner))

instance (s : System) : ∀ a, Decidable (Orderly number s a)
  | .insert index _ => inferInstanceAs (Decidable (∀ creation ∈ s.creations[index]?, _))
  | .request _ | .query _ _ | .fail _ | .other _ => isTrue trivial

/-- The texts `'1'` and `'2'`, read as numbers. -/
def smallNumber : Text → Option ℚ
  | ['1'] => some 1
  | ['2'] => some 2
  | _ => none

/-- One camera in the contract, and a group with one private camera that the client `a` belongs
to. -/
def yard : System where
  tables := {
    maxCameras := some ['1']
    cameras := []
    cameraGroups := [⟨['g'], 1⟩]
    cameraPermissions := [⟨['a'], some ['g'], .control, 0⟩] }
  creations := []

def askCeiling (index : ℕ) : List Step := [.query index .policy, .query index .cameras]

def askQuota (index : ℕ) : List Step :=
  [.query index .bindings, .query index .group, .query index .used, .query index .limit,
    .query index .quota]

def selfService (owner : Text) (groupId : Option Text) : List Step :=
  .request (.createMine owner groupId) :: (askCeiling 0 ++ askQuota 0 ++ [.insert 0 ['1']])

def parallel : List Step :=
  [.request .create, .request .create] ++ askCeiling 0 ++ askCeiling 1 ++
    [.insert 0 ['1'], .insert 0 ['2']]

theorem client_withinQuota :
    Leaves smallNumber yard (selfService ['a'] none) (Contracted smallNumber) :=
  quotas_kept smallNumber yard (selfService ['a'] none)
    (Runs.allowedBy_allowed (step smallNumber) (Orderly smallNumber) _ _ (by decide +kernel))

/-- Two administrators count before either writes, and a client of no group names one. -/
theorem contract_broken :
    ¬Leaves smallNumber yard parallel (fun tables _ => tables.WithinCeiling smallNumber) ∧
      ¬Leaves smallNumber yard (selfService ['b'] (some ['g']))
        (fun tables _ => tables.WithinQuota ['b']) := by
  constructor
  · intro leaves
    obtain ⟨camera, -, within⟩ := leaves 7
      ((Runs.run (step smallNumber) yard (parallel.take 7)).get (by decide +kernel))
      ((Runs.run (step smallNumber) yard parallel).get (by decide +kernel)) 0 ['2']
      (Option.some_get _).symm rfl (by decide +kernel)
    exact absurd within (by decide +kernel)
  · intro leaves
    obtain ⟨camera, -, within⟩ := leaves 8
      ((Runs.run (step smallNumber) yard ((selfService ['b'] (some ['g'])).take 8)).get
        (by decide +kernel))
      ((Runs.run (step smallNumber) yard (selfService ['b'] (some ['g']))).get
        (by decide +kernel)) 0 ['1']
      (Option.some_get _).symm rfl (by decide +kernel)
    exact absurd within (by decide +kernel)

end DracVms.CameraQuota
