import DracVms.Alarms.AlarmsService

namespace DracVms.Alarms

open Json (Text)
open Database

def motionDetected : Text := "MOTION_DETECTED".toList

/-- What a detector reports that is analytics without its prefix. -/
def EVENTOS_ANALITICOS : List Text :=
  ["LINE_CROSSED".toList, "INTRUSION_DETECTED".toList, "HUMAN_DETECTED".toList,
    "OBJECT_DETECTED".toList]

def inferSource (type : Text) : Option AlarmSource :=
  if "STREAM_".toList.isPrefixOf type then some .stream
  else if "HEALTH_".toList.isPrefixOf type then some .health
  else if type = motionDetected then some .motion
  else if "MOTION_".toList.isPrefixOf type then some .motion
  else if "AI_".toList.isPrefixOf type || "ANALYTICS_".toList.isPrefixOf type then some .analytics
  else if type ∈ EVENTOS_ANALITICOS then some .analytics
  else none

def isRecoveryEvent (type : Text) : Bool :=
  type ∈ ["HEALTH_AUTO_RECOVERED".toList, "HEALTH_RECORDING_RECOVERED".toList,
    "STREAM_RESUMED".toList, "STREAM_RECOVERED".toList]

structure EventInput where
  eventId : Text
  cameraId : Text
  type : Text
  severity : Text
  message : Text
  metadata : Option Metadata
  occurredAt : Instant

/-- A row of `AlarmRule`. -/
structure AlarmRule where
  id : Text
  priority : AlarmPriority
  isEnabled : Bool
  dedupWindowSeconds : ℕ

structure CameraAlarmConfig where
  alarmsEnabled : Bool
  recordingMode : Text
  enabled : Bool

/-- What the processing of an event reads beside the alarms. -/
structure Surroundings where
  camera : Option CameraAlarmConfig
  rule : Option AlarmRule
  ruleMuted : Bool
  cameraEventMuted : Bool

/-- `status: { in: [OPEN, ACKED] }` -/
def isLive (alarm : AlarmInstance) : Bool := alarm.status = .open || alarm.status = .acked

/-! The end of an alarm without an operator. -/

def quietSecondsOf (configured : ℕ) (window : Option ℕ) : ℕ :=
  max 30 (max configured (window.getD 0))

def isStale (now : Instant) (quietSeconds : ℕ) (alarm : AlarmInstance) : Bool :=
  alarm.source = .motion && alarm.type = motionDetected && isLive alarm &&
    (alarm.lastOccurredAt : ℤ) ≤ now - quietSeconds * 1000

def resolveStale (now : Instant) (quietSeconds : ℕ) (alarm : AlarmInstance) : AlarmInstance :=
  { alarm with
    status := .resolved
    resolvedAt := some now
    resolvedByUserName := some "SYSTEM_MOTION_QUIET".toList
    note := some ("Resolvido automaticamente após ".toList ++ Nat.toDigits 10 quietSeconds ++
      "s sem novo movimento.".toList) }

def resolveStaleMotionAlarms (now : Instant) (quietSeconds : ℕ) (rows : List AlarmInstance) :
    List AlarmInstance :=
  rows.map fun alarm =>
    if isStale now quietSeconds alarm then resolveStale now quietSeconds alarm else alarm

/-- What a recovery of the camera ends; a recovery of its health ends the alarms of its stream. -/
def isRecovered (cameraId : Text) (source : AlarmSource) (alarm : AlarmInstance) : Bool :=
  alarm.cameraId = some cameraId && isLive alarm &&
    if source = .health then alarm.source = .health || alarm.source = .stream
    else alarm.source = source

def autoResolve (event : EventInput) (alarm : AlarmInstance) : AlarmInstance :=
  { alarm with
    status := .resolved
    resolvedAt := some event.occurredAt
    resolvedByUserName := some "SYSTEM_AUTO_RECOVERY".toList
    note := some event.message
    eventId := some event.eventId }

/-! The opening of an alarm. -/

/-- Only a camera that records on movement is armed. -/
def isArmed (camera : CameraAlarmConfig) : Bool :=
  camera.enabled && camera.recordingMode = "motion".toList

/-- The rule by which an event opens an alarm. -/
def openingRule (event : EventInput) (read : Surroundings) : Option AlarmRule :=
  if read.camera.any fun camera => !camera.alarmsEnabled then none
  else if event.type = motionDetected && !read.camera.any isArmed then none
  else read.rule.filter fun rule =>
    rule.isEnabled && !read.ruleMuted && !read.cameraEventMuted

/-- The alarms of the same camera, source and type that absorb an event. -/
def absorbs (event : EventInput) (source : AlarmSource) (window : ℕ) (alarm : AlarmInstance) :
    Bool :=
  alarm.cameraId = some event.cameraId && alarm.source = source && alarm.type = event.type &&
    isLive alarm && ((event.occurredAt : ℤ) - window * 1000 ≤ alarm.lastOccurredAt)

def findExisting (event : EventInput) (source : AlarmSource) (window : ℕ)
    (rows : List AlarmInstance) : Option AlarmInstance :=
  ((rows.filter (absorbs event source window)).insertionSort
    fun a b => b.lastOccurredAt ≤ a.lastOccurredAt).head?

/-- The document that the event brings. -/
def eventMetadata (event : EventInput) : Metadata :=
  match event.metadata with
  | some (.object fields) => .object fields
  | some (.array items) => .array items
  | _ => .object []

/-- The update of the alarm that absorbs the event. -/
def absorb (event : EventInput) (rule : AlarmRule) (existing row : AlarmInstance) : AlarmInstance :=
  let updated : AlarmInstance := { row with
    eventId := some event.eventId
    message := event.message
    severity := event.severity
    priority := rule.priority
    metadata := some (eventMetadata event)
    lastOccurredAt := event.occurredAt
    occurrenceCount := row.occurrenceCount + 1 }
  if existing.status = .resolved then
    { updated with
      status := .open, resolvedAt := none, resolvedByUserId := none, resolvedByUserName := none }
  else updated

/-- The alarm that the event opens. -/
def opened (event : EventInput) (source : AlarmSource) (rule : AlarmRule) (id : Text) :
    AlarmInstance where
  id := id
  cameraId := some event.cameraId
  eventId := some event.eventId
  source := source
  type := event.type
  title := event.type.map fun c => if c = '_' then ' ' else c
  message := event.message
  severity := event.severity
  priority := rule.priority
  status := .open
  metadata := some (eventMetadata event)
  note := none
  occurrenceCount := 1
  firstOccurredAt := event.occurredAt
  lastOccurredAt := event.occurredAt
  acknowledgedAt := none
  acknowledgedByUserId := none
  acknowledgedByUserName := none
  resolvedAt := none
  resolvedByUserId := none
  resolvedByUserName := none

theorem findExisting_some {event : EventInput} {source : AlarmSource} {window : ℕ}
    {rows : List AlarmInstance} {existing : AlarmInstance}
    (found : findExisting event source window rows = some existing) :
    existing ∈ rows ∧ absorbs event source window existing = true := by
  have member := List.mem_of_mem_head? found
  rw [List.mem_insertionSort] at member
  exact List.mem_filter.mp member

end DracVms.Alarms
