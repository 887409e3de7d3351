import DracVms.CloudConnector.StatusCaps

namespace DracVms.Heartbeat

open CommercialPolicy
open Json (Text Value Scalar field stringify)
open StatusCaps
open VencimentoDeLicenca

variable (runtime : Runtime)

/-- What a response of the Central brings. The values of the settings that the connector does not
read again are the texts that it stores. -/
structure Response where
  licenseStatus : Option Text
  licenseMessage : Text
  restrictions : RestrictionMap runtime
  maxCameras : Text
  maxUsers : Text
  maxRetentionDays : Text
  vpn : Text
  cloudStorage : Text
  cloudStorageState : Text
  cloudStorageRemovals : Text
  branding : Option Text
  configRevision : ℚ

/-- The settings of the connector. -/
structure Installation where
  policy : Settings
  vpn : Option Text
  lastPayloadSummary : Option Text
  storage : Option Text
  storageState : Option Text
  storageRemovals : Option Text
  appliedConfigRevision : Option ℚ
  configApplyStatus : Option Text
  configApplyError : Option Text

/-- The settings that one heartbeat writes in parallel. -/
inductive Setting where
  | lastSyncAt
  | lastError
  | licenseStatus
  | licenseMessage
  | restrictions
  | maxCameras
  | maxUsers
  | maxRetentionDays
  | vpn
  | lastPayloadSummary
  | storage
  | storageState
  | storageRemovals

def Setting.all : List Setting :=
  [.lastSyncAt, .lastError, .licenseStatus, .licenseMessage, .restrictions, .maxCameras, .maxUsers,
    .maxRetentionDays, .vpn, .lastPayloadSummary, .storage, .storageState, .storageRemovals]

/-- One call of `marcarInstante`: its clock, and whether its read and its write succeed. -/
structure Marking where
  agora : ℤ
  read : Bool
  written : Bool

/-- A read that fails finds nothing, and nothing counts as the beginning of time. -/
def Marking.anterior (marking : Marking) (stored : Option ℤ) : ℤ :=
  if marking.read then stored.getD 0 else 0

def Marking.writes (marking : Marking) (stored : Option ℤ) : Bool :=
  marking.anterior stored < marking.agora

def marcarInstante (stored : Option ℤ) (marking : Marking) : Option ℤ :=
  if marking.writes stored && marking.written then some marking.agora else stored

def Marking.throws (marking : Marking) (stored : Option ℤ) : Bool :=
  marking.writes stored && !marking.written

/-- The downgrade of the AI stores the mode and then starts a synchronisation, whose failure it
keeps to itself. -/
inductive Downgrade where
  | done
  | unsynchronised
  | failed

/-- What happens on the way out of a heartbeat that threw. -/
structure Failure where
  message : Text
  lastErrorWritten : Bool
  marking : Marking

structure Outcomes where
  /-- The settings could be read when the payload was collected. -/
  settingsRead : Bool
  summary : Text
  contactAt : ℤ
  written : Setting → Bool
  marking : Marking
  branding : Bool
  stopRecordings : Bool
  stopAi : Bool
  downgradeAi : Downgrade
  applyError : Text
  applyStatusWritten : Bool
  applyErrorWritten : Bool
  revisionWritten : Bool
  /-- What comes after the configuration throws. -/
  laterThrows : Bool
  /-- What happens then, or after a record that could not be written. -/
  failure : Failure

variable {runtime}

def applied : Text := "APPLIED".toList

def failed : Text := "FAILED".toList

/-- The state of the configuration as the payload reports it. -/
def appliedRevision (installation : Installation) (settingsRead : Bool) : ℚ :=
  if settingsRead then installation.appliedConfigRevision.getD 0 else 0

def reportsFailed (installation : Installation) (settingsRead : Bool) : Bool :=
  settingsRead && installation.configApplyStatus = some failed

def shouldApplyDesiredConfig (installation : Installation) (settingsRead : Bool)
    (response : Response runtime) : Bool :=
  appliedRevision installation settingsRead < response.configRevision ||
    reportsFailed installation settingsRead

def put {α : Type} (written : Bool) (new old : α) : α := if written then new else old

/-- The parallel writes, those that succeed. -/
def writeSettings (installation : Installation) (response : Response runtime)
    (outcomes : Outcomes) : Installation :=
  let status := normalizeStatus response.licenseStatus
  let restrictions := applyStatusCaps runtime status response.restrictions.fields
  let put {α : Type} (setting : Setting) (new : α) (old : Option α) : Option α :=
    put (outcomes.written setting) (some new) old
  let policy := installation.policy
  { installation with
    policy :=
      { licenseStatus := put .licenseStatus (statusName status) policy.licenseStatus
        licenseMessage := put .licenseMessage response.licenseMessage policy.licenseMessage
        restrictions := put .restrictions (stringify (leaves runtime) (.object restrictions))
          policy.restrictions
        lastSyncAt := put .lastSyncAt outcomes.contactAt policy.lastSyncAt
        lastError := put .lastError [] policy.lastError
        maiorInstanteVisto := marcarInstante policy.maiorInstanteVisto outcomes.marking
        maxCameras := put .maxCameras response.maxCameras policy.maxCameras
        maxUsers := put .maxUsers response.maxUsers policy.maxUsers
        maxRetentionDays := put .maxRetentionDays response.maxRetentionDays
          policy.maxRetentionDays }
    vpn := put .vpn response.vpn installation.vpn
    lastPayloadSummary := put .lastPayloadSummary outcomes.summary installation.lastPayloadSummary
    storage := put .storage response.cloudStorage installation.storage
    storageState := put .storageState response.cloudStorageState installation.storageState
    storageRemovals := put .storageRemovals response.cloudStorageRemovals
      installation.storageRemovals }

def writesThrow (installation : Installation) (outcomes : Outcomes) : Bool :=
  (Setting.all.any fun setting => !outcomes.written setting) ||
    outcomes.marking.throws installation.policy.maiorInstanteVisto

/-- The branding is applied where the response brings one for a configuration that is due. -/
def appliesBranding (installation : Installation) (response : Response runtime)
    (outcomes : Outcomes) : Bool :=
  response.branding.isSome && shouldApplyDesiredConfig installation outcomes.settingsRead response

/-- The apply phase throws. `enforceRuntimeRestrictions`, its last step, catches whatever it meets
and never does. -/
def applyThrows (installation : Installation) (response : Response runtime)
    (outcomes : Outcomes) : Bool :=
  writesThrow installation outcomes ||
    appliesBranding installation response outcomes && !outcomes.branding

/-- The map that the enforcement goes by. -/
def enforced (response : Response runtime) : List (Text × Json runtime) :=
  applyStatusCaps runtime (normalizeStatus response.licenseStatus) response.restrictions.fields

def isFalse (restrictions : List (Text × Json runtime)) (key : Restriction) : Bool :=
  (field restrictions key.name).bind (boolean runtime) = some false

def isTrue (restrictions : List (Text × Json runtime)) (key : Restriction) : Bool :=
  (field restrictions key.name).bind (boolean runtime) = some true

def hasGranular (restrictions : List (Text × Json runtime)) : Bool :=
  (field restrictions Restriction.aiMotion.name).isSome ||
    (field restrictions Restriction.aiObject.name).isSome ||
    (field restrictions Restriction.aiFace.name).isSome

def mustStopRecordings (restrictions : List (Text × Json runtime)) : Bool :=
  isFalse restrictions .localRecording

def mustStopEverything (restrictions : List (Text × Json runtime)) : Bool :=
  if hasGranular restrictions then isFalse restrictions .aiMotion
  else isFalse restrictions .aiAdvanced

def mustDowngrade (restrictions : List (Text × Json runtime)) : Bool :=
  !mustStopEverything restrictions && hasGranular restrictions &&
    !isTrue restrictions .aiObject && !isTrue restrictions .aiFace

/-- The catch of the whole heartbeat. -/
def catchFailure (installation : Installation) (failure : Failure) : Installation :=
  if failure.lastErrorWritten then
    { installation with
      policy :=
        { installation.policy with
          lastError := some failure.message
          maiorInstanteVisto :=
            marcarInstante installation.policy.maiorInstanteVisto failure.marking } }
  else installation

inductive Attempt (runtime : Runtime) where
  | disabled
  | missingConfig (message : Text) (written : Bool)
  | alreadyRunning
  /-- No answer: the payload cannot be collected, or the Central not be reached. -/
  | unanswered (failure : Failure)
  | answered (response : Response runtime) (outcomes : Outcomes)

/-- What the heartbeat records of its own apply phase. -/
def recordApplied (installation : Installation) (response : Response runtime)
    (outcomes : Outcomes) (throws : Bool) : Installation :=
  { installation with
    configApplyStatus := put outcomes.applyStatusWritten
      (some (if throws then failed else applied)) installation.configApplyStatus
    configApplyError := put outcomes.applyErrorWritten
      (some (if throws then outcomes.applyError else [])) installation.configApplyError
    appliedConfigRevision := put (!throws && outcomes.revisionWritten)
      (some response.configRevision) installation.appliedConfigRevision }

def recordThrows (outcomes : Outcomes) (throws : Bool) : Bool :=
  !outcomes.applyStatusWritten || !outcomes.applyErrorWritten ||
    !throws && !outcomes.revisionWritten

def syncHeartbeat (installation : Installation) : Attempt runtime → Installation
  | .disabled | .alreadyRunning => installation
  | .missingConfig message written =>
    { installation with
      policy :=
        { installation.policy with
          lastError := put written (some message) installation.policy.lastError } }
  | .unanswered failure => catchFailure installation failure
  | .answered response outcomes =>
    let throws := applyThrows installation response outcomes
    let recorded := recordApplied (writeSettings installation response outcomes) response
      outcomes throws
    if recordThrows outcomes throws || outcomes.laterThrows then
      catchFailure recorded outcomes.failure
    else recorded

end DracVms.Heartbeat
