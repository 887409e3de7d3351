import DracVms.Cameras.CameraQuota
import DracVms.CommercialPolicy.VencimentoDeLicenca

namespace DracVms.CommercialPolicy

open CameraQuota (paraInteiro)
open Json (Text Value NumberFormat Scalar LeafSyntax buildFields field parse scalarSyntax)
open VencimentoDeLicenca

/-- The keys of the map of restrictions. -/
inductive Restriction where
  | localLive
  | localRecording
  | localPlayback
  | addCameras
  | aiAdvanced
  | aiMotion
  | aiObject
  | aiFace
  | exports
  | adminAccess
  | cloudSupport
  | updates
  deriving DecidableEq

open Restriction

def Restriction.all : List Restriction :=
  [localLive, localRecording, localPlayback, addCameras, aiAdvanced, aiMotion, aiObject, aiFace,
    exports, adminAccess, cloudSupport, updates]

def Restriction.name : Restriction → Text
  | localLive => "localLive".toList
  | localRecording => "localRecording".toList
  | localPlayback => "localPlayback".toList
  | addCameras => "addCameras".toList
  | aiAdvanced => "aiAdvanced".toList
  | aiMotion => "aiMotion".toList
  | aiObject => "aiObject".toList
  | aiFace => "aiFace".toList
  | exports => "exports".toList
  | adminAccess => "adminAccess".toList
  | cloudSupport => "cloudSupport".toList
  | updates => "updates".toList

theorem mem_all (key : Restriction) : key ∈ Restriction.all := by
  cases key <;> decide

theorem name_injective : Function.Injective Restriction.name := by
  intro first second same
  have distinct : (Restriction.all.map Restriction.name).Nodup := by decide +kernel
  exact List.inj_on_of_nodup_map distinct (mem_all first) (mem_all second) same

def defaultRestrictions : Restriction → Bool := fun _ => true

/-- The whole map of each status, with `true` for what it leaves alone. -/
def statusDefaults : EstadoDaLicenca → Restriction → Bool
  | .restricted, addCameras | .restricted, aiAdvanced | .restricted, updates => false
  | .suspended, localLive | .suspended, localRecording | .suspended, addCameras
  | .suspended, aiAdvanced | .suspended, cloudSupport | .suspended, updates => false
  | _, key => defaultRestrictions key

/-- A part of the map: nothing for a key that it lacks. -/
abbrev PartialMap := Restriction → Option Bool

def statusCaps : EstadoDaLicenca → PartialMap
  | .suspended => fun key => some (statusDefaults .suspended key)
  | .restricted => fun key => some (statusDefaults .restricted key)
  | _ => fun _ => none

def statusName : EstadoDaLicenca → Text
  | .unknown => "UNKNOWN".toList
  | .active => "ACTIVE".toList
  | .grace => "GRACE".toList
  | .restricted => "RESTRICTED".toList
  | .suspended => "SUSPENDED".toList

def normalizeStatus (value : Option Text) : EstadoDaLicenca :=
  if value = some (statusName .active) then .active
  else if value = some (statusName .grace) then .grace
  else if value = some (statusName .restricted) then .restricted
  else if value = some (statusName .suspended) then .suspended
  else .unknown

theorem normalizeStatus_name (status : EstadoDaLicenca) :
    normalizeStatus (some (statusName status)) = status := by
  cases status <;> decide

/-- The settings that the policy reads; an instant is what the stored text stands for, if it is
legible. -/
structure Settings where
  licenseStatus : Option Text
  licenseMessage : Option Text
  restrictions : Option Text
  lastSyncAt : Option ℤ
  lastError : Option Text
  maiorInstanteVisto : Option ℤ
  maxCameras : Option Text
  maxUsers : Option Text
  maxRetentionDays : Option Text

/-- How the runtime reads numbers out of texts, writes values as texts, and puts these in lower
case. -/
structure Runtime where
  numbers : NumberFormat
  number : Text → Option ℚ
  asText : Value (Scalar numbers.Number) → Text
  toLowerCase : Text → Text

variable (runtime : Runtime)

abbrev Json := Value (Scalar runtime.numbers.Number)

def leaves : LeafSyntax (Scalar runtime.numbers.Number) := scalarSyntax runtime.numbers

/-- What `JSON.parse` makes of a setting that is there and not empty. -/
def parsed (value : Option Text) : Option (Json runtime) :=
  (value.filter fun text => text ≠ []).bind (parse (leaves runtime))

def boolean : Json runtime → Option Bool
  | .atom (.bool restriction) => some restriction
  | _ => none

/-- `Object.fromEntries` of the entries whose key is known and whose value is a boolean. -/
def knownEntries (fields : List (Text × Json runtime)) : PartialMap := fun key =>
  (field fields key.name).bind (boolean runtime)

def parseRestrictions (value : Option Text) : PartialMap :=
  match parsed runtime value with
  | some (.object fields) => knownEntries runtime fields
  | _ => fun _ => none

def parseObjectClasses (value : Option Text) : List Text :=
  match parsed runtime value with
  | some (.object fields) =>
    match field fields "aiObjectClasses".toList with
    | some (.array bruto) =>
      let classes := bruto.map fun c =>
        match c with
        | .atom .null => []
        | other => runtime.toLowerCase (JsString.trim (runtime.asText other))
      (classes.filter fun name => name ≠ []).eraseDups
    | _ => []
  | _ => []

structure Policy where
  licenseStatus : EstadoDaLicenca
  statusDaCentral : EstadoDaLicenca
  diasSemContato : Option ℤ
  diasAteOProximoCorte : Option ℤ
  avisarSobreContato : Bool
  motivoDaLicenca : Motivo
  maxCameras : Option ℕ
  maxUsers : Option ℕ
  maxRetentionDays : Option ℕ
  licenseMessage : Option Text
  lastSyncAt : Option ℤ
  lastError : Option Text
  restrictions : Restriction → Bool
  aiObjectClasses : List Text

/-- `{ ...DEFAULT_RESTRICTIONS, ...centralRestrictions, ...statusCaps }` -/
def mergedRestrictions (central : PartialMap) (licenseStatus : EstadoDaLicenca)
    (key : Restriction) : Bool :=
  (statusCaps licenseStatus key).getD ((central key).getD (defaultRestrictions key))

def nonEmpty (value : Option Text) : Option Text := value.filter fun text => text ≠ []

def getPolicy (settings : Settings) (agoraMs : ℤ) : Policy :=
  let statusDaCentral := normalizeStatus settings.licenseStatus
  let decisao := decidirLicenca statusDaCentral settings.lastSyncAt agoraMs
    settings.maiorInstanteVisto
  let merged := mergedRestrictions (parseRestrictions runtime settings.restrictions) decisao.estado
  { licenseStatus := decisao.estado
    statusDaCentral := statusDaCentral
    diasSemContato := decisao.diasSemContato
    diasAteOProximoCorte := decisao.diasAteOProximoCorte
    avisarSobreContato := decisao.avisar
    motivoDaLicenca := decisao.motivo
    maxCameras := paraInteiro runtime.number settings.maxCameras
    maxUsers := paraInteiro runtime.number settings.maxUsers
    maxRetentionDays := paraInteiro runtime.number settings.maxRetentionDays
    licenseMessage := nonEmpty settings.licenseMessage
    lastSyncAt := settings.lastSyncAt
    lastError := nonEmpty settings.lastError
    restrictions := merged
    aiObjectClasses :=
      if merged aiObject = false then [] else parseObjectClasses runtime settings.restrictions }

end DracVms.CommercialPolicy
