import DracVms.Cameras.EventLists

namespace DracVms.Reports

open Json (Text)
open Database AccessControl EventLists

/-- The recordings and the audit trail beside the events and the alarms. -/
structure ReportTables extends EventTables where
  recordings : List Recording
  auditLogs : List AuditLog

/-- What the reports take from outside: `healthCheckOfflineMinutes`, the readings of the clock in
the order in which a call makes them, and `new Date` of a text and of a JSON value. -/
structure Surroundings where
  healthCheckOfflineMinutes : Option ℤ
  clock : ℕ → ℤ
  newDate : Text → Option ℤ
  dateOfJson : Metadata → Option ℤ

def minute : ℤ := 60 * 1000

def day : ℤ := 24 * 60 * minute

section Sorting

variable {Row : Type}

/-- `orderBy: { … : 'desc' }`, and the sorts from the largest to the smallest. -/
def descending (key : Row → ℤ) (rows : List Row) : List Row :=
  rows.insertionSort fun a b => key b ≤ key a

def ascending (key : Row → ℤ) (rows : List Row) : List Row :=
  rows.insertionSort fun a b => key a ≤ key b

end Sorting

/-- `accessibleIds ? { id: { in: accessibleIds } } : {}` -/
def camerasOf (db : ReportTables) (accessibleIds : Option (List Text)) : List Camera :=
  db.cameras.filter fun camera => accessibleIds.all fun ids => camera.id ∈ ids

def newestCamerasFirst (cameras : List Camera) : List Camera :=
  descending (fun camera => (camera.createdAt : ℤ)) cameras

/-- The columns of a camera that the reports select. -/
structure CameraView where
  id : Text
  name : Text
  status : CameraStatus
  lastSeenAt : Option Instant
  recordingEnabled : Bool

def viewOf (camera : Camera) : CameraView :=
  ⟨camera.id, camera.name, camera.status, camera.lastSeenAt, camera.recordingEnabled⟩

structure Summary where
  total : ℕ
  online : ℕ
  offline : ℕ
  error : ℕ
  unknown : ℕ
  recordingEnabled : ℕ

structure StaleItem where
  id : Text
  name : Text
  status : CameraStatus
  lastSeenAt : Option Instant

structure Overview where
  summary : Summary
  events24h : ℕ
  recordings24h : ℕ
  thresholdMinutes : ℤ
  staleCount : ℕ
  staleItems : List StaleItem
  generatedAt : ℤ

def summaryOf (cameras : List Camera) : Summary :=
  { total := cameras.length
    online := cameras.countP fun camera => camera.status = .online
    offline := cameras.countP fun camera => camera.status = .offline
    error := cameras.countP fun camera => camera.status = .error
    unknown := cameras.countP fun camera => camera.status = .unknown
    recordingEnabled := cameras.countP fun camera => camera.recordingEnabled }

def isStale (staleThreshold : ℤ) (camera : Camera) : Bool :=
  match camera.lastSeenAt with
  | none => true
  | some lastSeenAt => camera.status = .online && lastSeenAt < staleThreshold

/-- An empty list of ids leaves the camera filter out. -/
def inCamerasOrAll (cameraIds : List Text) (cameraId : Text) : Bool :=
  cameraIds.isEmpty || cameraId ∈ cameraIds

def getOverview (around : Surroundings) (db : ReportTables)
    (accessibleIds : Option (List Text)) : Overview :=
  let cameras := newestCamerasFirst (camerasOf db accessibleIds)
  let thresholdMinutes := around.healthCheckOfflineMinutes.getD 5
  let staleThreshold := around.clock 0 - thresholdMinutes * minute
  let last24h := around.clock 1 - day
  let cameraIds := cameras.map Camera.id
  let stale := ascending (fun camera => ((camera.lastSeenAt.getD 0 : ℕ) : ℤ))
    (cameras.filter (isStale staleThreshold))
  { summary := summaryOf cameras
    events24h := db.cameraEvents.countP fun event =>
      inCamerasOrAll cameraIds event.cameraId && last24h ≤ (event.occurredAt : ℤ)
    recordings24h := db.recordings.countP fun recording =>
      inCamerasOrAll cameraIds recording.cameraId && last24h ≤ (recording.startedAt : ℤ)
    thresholdMinutes
    staleCount := stale.length
    staleItems := (stale.take 10).map fun camera =>
      ⟨camera.id, camera.name, camera.status, camera.lastSeenAt⟩
    generatedAt := around.clock 2 }

inductive Level where
  | good
  | attention
  | critical
  deriving DecidableEq

structure HealthItem where
  camera : CameraView
  streamIncidents24h : ℕ
  score : ℤ
  level : Level
  reasons : List Text

structure HealthScores where
  items : List HealthItem
  generatedAt : ℤ
  staleThresholdMinutes : ℤ

def statusDeduction : CameraStatus → List (ℤ × Text)
  | .error => [(60, "status_error".toList)]
  | .offline => [(45, "status_offline".toList)]
  | .unknown => [(20, "status_unknown".toList)]
  | .online => []

def heartbeatDeduction (now staleMs : ℤ) : Option Instant → List (ℤ × Text)
  | none => [(20, "missing_last_seen".toList)]
  | some lastSeenAt =>
    if staleMs < now - lastSeenAt then [(25, "stale_heartbeat".toList)] else []

def incidentDeduction (incidentCount : ℕ) : List (ℤ × Text) :=
  if 0 < incidentCount then
    [(min 35 (incidentCount * 5), "stream_incidents_24h_".toList ++ Nat.toDigits 10 incidentCount)]
  else []

/-- What lowers the score of a camera, each with its reason. -/
def deductions (now staleMs : ℤ) (camera : Camera) (incidentCount : ℕ) : List (ℤ × Text) :=
  statusDeduction camera.status ++ heartbeatDeduction now staleMs camera.lastSeenAt ++
    (if camera.recordingEnabled then [] else [(10, "recording_disabled".toList)]) ++
    incidentDeduction incidentCount

def healthItem (now staleMs : ℤ) (camera : Camera) (incidentCount : ℕ) : HealthItem :=
  let lowered := deductions now staleMs camera incidentCount
  let clamped := max 0 (min 100 (100 - (lowered.map Prod.fst).sum))
  { camera := viewOf camera
    streamIncidents24h := incidentCount
    score := clamped
    level := if 85 ≤ clamped then .good else if 60 ≤ clamped then .attention else .critical
    reasons := lowered.map Prod.snd }

def isIncidentSince (cameraIds : List Text) (since : ℤ) (event : CameraEvent) : Bool :=
  event.cameraId ∈ cameraIds && isStreamEvent event && since ≤ (event.occurredAt : ℤ)

def getHealthScores (around : Surroundings) (db : ReportTables)
    (accessibleIds : Option (List Text)) : HealthScores :=
  let staleMinutes := around.healthCheckOfflineMinutes.getD 5
  let cameras := newestCamerasFirst (camerasOf db accessibleIds)
  let last24h := around.clock 1 - day
  let counted := db.cameraEvents.filter (isIncidentSince (cameras.map Camera.id) last24h)
  let items := cameras.map fun camera => healthItem (around.clock 0) (staleMinutes * minute) camera
    (counted.countP fun event => event.cameraId = camera.id)
  { items := ascending HealthItem.score items
    generatedAt := around.clock 2
    staleThresholdMinutes := staleMinutes }

structure ReliabilityItem where
  camera : CameraView
  incidentCount : ℕ
  openCount : ℕ
  ackedCount : ℕ
  meanAckMinutes : Option ℚ
  recoveryCount : ℕ
  reliabilityScore : ℤ

structure ReliabilityReport where
  days : ℤ
  generatedAt : ℤ
  cameras : ℕ
  incidents : ℕ
  openIncidents : ℕ
  meanReliabilityScore : Option ℚ
  items : List ReliabilityItem

/-- `Number(value.toFixed(2))` of a value that is not negative. -/
def toFixed2 (value : ℚ) : ℚ := ⌊value * 100 + 1 / 2⌋ / 100

/-- A condition on a JSON value. -/
def isTruthy : Metadata → Bool
  | .atom (.bool b) => b
  | .atom (.number n) => n ≠ 0
  | .atom (.string text) => text ≠ []
  | .atom .null => false
  | _ => true

/-- `ack.at ? new Date(ack.at) : null`, an invalid date being a date without a value. -/
def ackAt (around : Surroundings) (event : CameraEvent) : Option (Option ℤ) :=
  let ack := event.metadata.bind fun value => isAcknowledged.fieldOf value "ack".toList
  let at' := (ack.bind fun value => isAcknowledged.fieldOf value "at".toList).filter isTruthy
  at'.map around.dateOfJson

def clampDays (days : ℤ) : ℤ := max 1 (min 90 days)

/-- The mean of the minutes until the acknowledgement, when there is one and all dates are valid. -/
def meanAckMinutes (around : Surroundings) (incidents : List CameraEvent) : Option ℚ :=
  let acked := incidents.filterMap fun event => (ackAt around event).map fun at' =>
    at'.map fun (t : ℤ) => max 0 (((t - event.occurredAt : ℤ) : ℚ) / 60000)
  match acked.mapM id with
  | none => none
  | some durations =>
    if durations.isEmpty then none else some (toFixed2 (durations.sum / durations.length))

def reliabilityItem (around : Surroundings) (camera : Camera) (incidents : List CameraEvent)
    (recoveryCount : ℕ) : ReliabilityItem :=
  let openCount := incidents.countP fun event => (ackAt around event).isNone
  { camera := viewOf camera
    incidentCount := incidents.length
    openCount
    ackedCount := incidents.length - openCount
    meanAckMinutes := meanAckMinutes around incidents
    recoveryCount
    reliabilityScore := max 0 (min 100 (100 - incidents.length * 4 - openCount * 6 -
      (if camera.status = .offline then 20 else 0) - if camera.status = .error then 30 else 0)) }

def isRecovery (event : CameraEvent) : Bool := event.type = "HEALTH_AUTO_RECOVERED".toList

def isRecoverySince (cameraIds : List Text) (since : ℤ) (event : CameraEvent) : Bool :=
  event.cameraId ∈ cameraIds && isRecovery event && since ≤ (event.occurredAt : ℤ)

def getReliabilityReport (around : Surroundings) (db : ReportTables) (days : ℤ)
    (accessibleIds : Option (List Text)) : ReliabilityReport :=
  let safeDays := clampDays days
  let since := around.clock 0 - safeDays * day
  let cameras := camerasOf db accessibleIds
  let ids := cameras.map Camera.id
  let incidents := ascending (fun event => ((event.occurredAt : ℕ) : ℤ))
    (db.cameraEvents.filter (isIncidentSince ids since))
  let recoveries := db.cameraEvents.filter (isRecoverySince ids since)
  let perCamera := cameras.map fun camera => reliabilityItem around camera
    (incidents.filter fun event => event.cameraId = camera.id)
    (recoveries.countP fun event => event.cameraId = camera.id)
  { days := safeDays
    generatedAt := around.clock 1
    cameras := perCamera.length
    incidents := (perCamera.map ReliabilityItem.incidentCount).sum
    openIncidents := (perCamera.map ReliabilityItem.openCount).sum
    meanReliabilityScore :=
      if perCamera.isEmpty then none
      else some (toFixed2 (((perCamera.map ReliabilityItem.reliabilityScore).sum : ℤ) /
        (perCamera.length : ℚ)))
    items := ascending ReliabilityItem.reliabilityScore perCamera }

structure TrendRow where
  /-- The UTC day, counted from the epoch. -/
  date : ℤ
  incidents : ℕ
  acked : ℕ
  unacked : ℕ
  recoveries : ℕ
  score : ℤ

structure ReliabilityTrend where
  days : ℤ
  cameraId : Option Text
  generatedAt : ℤ
  items : List TrendRow

def dayKey (instant : ℤ) : ℤ := instant / day

def trendRow (incidents recoveries : List CameraEvent) (key : ℤ) : TrendRow :=
  let here := incidents.filter fun event => dayKey event.occurredAt = key
  let acked := here.countP isAcknowledged
  let recovered := recoveries.countP fun event => dayKey event.occurredAt = key
  { date := key
    incidents := here.length
    acked
    unacked := here.length - acked
    recoveries := recovered
    score := max 0 (min 100 (100 - here.length * 4 - (here.length - acked : ℕ) * 6 +
      recovered * 2)) }

/-- The days of the trend, the clock being read again for each of them. -/
def trendDays (around : Surroundings) (safeDays : ℤ) : List ℤ :=
  unique ((List.range safeDays.toNat).map fun (n : ℕ) =>
    dayKey (around.clock (n + 1)) - (safeDays - 1 - n))

/-- The one camera asked for, or all of them. -/
def targetOr (targetCameraId : Option Text) (validIds : List Text) : List Text :=
  match targetCameraId with
  | some id => [id]
  | none => validIds

def getReliabilityTrend (around : Surroundings) (db : ReportTables) (days : ℤ)
    (accessibleIds : Option (List Text)) (cameraId : Option Text) : ReliabilityTrend :=
  let safeDays := clampDays days
  let since := around.clock 0 - safeDays * day
  let validIds := (camerasOf db accessibleIds).map Camera.id
  let targetCameraId := (truthy cameraId).filter fun id => id ∈ validIds
  let cameraFilter := targetOr targetCameraId validIds
  let incidents := db.cameraEvents.filter (isIncidentSince cameraFilter since)
  let recoveries := db.cameraEvents.filter (isRecoverySince cameraFilter since)
  { days := safeDays
    cameraId := targetCameraId
    generatedAt := around.clock (safeDays.toNat + 1)
    items := (trendDays around safeDays).map (trendRow incidents recoveries) }

inductive TimelineKind where
  | event
  | alarm
  | action
  deriving DecidableEq

structure TimelineItem where
  kind : TimelineKind
  moment : Instant
  cameraId : Option Text
  cameraName : Option Text
  severity : Text
  type : Text
  message : Text
  eventId : Option Text
  alarmId : Option Text
  alarmStatus : Option AlarmStatus
  action : Option Text
  actor : Option Text

structure Timeline where
  generatedAt : ℤ
  since : ℤ
  until' : ℤ
  items : List TimelineItem

structure TimelineQuery where
  cameraId : Option Text
  fromDate : Option Text
  toDate : Option Text
  limit : Option ℤ

/-- The last alarm that names the event. -/
def alarmOfEvent (alarms : List AlarmInstance) (eventId : Text) : Option AlarmInstance :=
  (alarms.reverse).find? fun alarm => truthy alarm.eventId = some eventId

def eventItem (db : ReportTables) (alarms : List AlarmInstance) (event : CameraEvent) :
    TimelineItem :=
  let linkedAlarm := alarmOfEvent alarms event.id
  { kind := .event, moment := event.occurredAt, cameraId := some event.cameraId
    cameraName := cameraName db.toEventTables event.cameraId, severity := event.severity
    type := event.type, message := event.message, eventId := some event.id
    alarmId := linkedAlarm.map AlarmInstance.id
    alarmStatus := linkedAlarm.map AlarmInstance.status, action := none, actor := none }

def alarmItem (db : ReportTables) (alarm : AlarmInstance) : TimelineItem :=
  { kind := .alarm, moment := alarm.lastOccurredAt, cameraId := alarm.cameraId
    cameraName := alarm.cameraId.bind (cameraName db.toEventTables), severity := alarm.severity
    type := alarm.type, message := alarm.message, eventId := alarm.eventId
    alarmId := some alarm.id, alarmStatus := some alarm.status, action := none
    actor := alarm.acknowledgedByUserName.or alarm.resolvedByUserName }

def auditItem (entry : AuditLog) : TimelineItem :=
  { kind := .action, moment := entry.createdAt, cameraId := none, cameraName := none
    severity := "INFO".toList, type := entry.action
    message := entry.entityType ++ (truthy entry.entityId).elim [] fun id => ' ' :: id
    eventId := none, alarmId := none, alarmStatus := none, action := some entry.action
    actor := entry.userId }

/-- The actions that the timeline shows. -/
def isOperation (entry : AuditLog) : Bool :=
  "alarm.".toList.isPrefixOf entry.action || "recording.reconnect".toList.isPrefixOf entry.action ||
    "incident.".toList.isPrefixOf entry.action

def within (since until' : ℤ) (moment : Instant) : Bool :=
  since ≤ (moment : ℤ) && (moment : ℤ) ≤ until'

def dateOr (around : Surroundings) (text : Option Text) (absent : ℤ) : Except Failure ℤ :=
  match truthy text with
  | none => .ok absent
  | some text =>
    match around.newDate text with
    | none => .error .invalidDate
    | some instant => .ok instant

def timelineLimit (limit : Option ℤ) : ℕ := (max 10 (min 500 (limit.getD 120))).toNat

/-- The items before they are put in order. -/
def timelineItems (db : ReportTables) (cameraIds : List Text) (since until' : ℤ) (limit : ℕ) :
    List TimelineItem :=
  let events := (descending (fun event => ((event.occurredAt : ℕ) : ℤ))
    (db.cameraEvents.filter fun event =>
      event.cameraId ∈ cameraIds && within since until' event.occurredAt)).take limit
  let alarms := (descending (fun alarm => ((alarm.lastOccurredAt : ℕ) : ℤ))
    (db.alarmInstances.filter fun alarm =>
      alarm.cameraId.any (fun id => id ∈ cameraIds) &&
        within since until' alarm.lastOccurredAt)).take limit
  let audit := (descending (fun entry => ((entry.createdAt : ℕ) : ℤ))
    (db.auditLogs.filter fun entry =>
      within since until' entry.createdAt && isOperation entry)).take limit
  events.map (eventItem db alarms) ++ alarms.map (alarmItem db) ++ audit.map auditItem

def getOperationsTimeline (around : Surroundings) (db : ReportTables)
    (accessibleCameraIds : List Text) (query : TimelineQuery) : Except Failure Timeline := do
  let limit := timelineLimit query.limit
  let since ← dateOr around query.fromDate (around.clock 0 - day)
  let until' ← dateOr around query.toDate (around.clock 1)
  let cameraIds := chosenCameraIds query.cameraId accessibleCameraIds
  let items := (descending (fun item => ((item.moment : ℕ) : ℤ))
    (timelineItems db cameraIds since until' limit)).take limit
  return ⟨around.clock 2, since, until', items⟩

/-! The endpoints. An administrator asks without a list of cameras. -/

section Endpoints

variable (around : Surroundings) (db : ReportTables) (user : AuthUser)

def idsOf : Option (List Text) :=
  if isPrivileged user then none else some (getAccessibleCameraIds db.toDirectory user)

def overview : Overview := getOverview around db (idsOf db user)

def healthScores : HealthScores := getHealthScores around db (idsOf db user)

def reliability (days : ℤ) : ReliabilityReport := getReliabilityReport around db days (idsOf db user)

def reliabilityTrend (days : ℤ) (cameraId : Option Text) : Except Failure ReliabilityTrend := do
  checkView db.toEventTables user cameraId
  return getReliabilityTrend around db days (idsOf db user) cameraId

def operationsTimeline (query : TimelineQuery) : Except Failure Timeline := do
  checkView db.toEventTables user query.cameraId
  getOperationsTimeline around db (listedCameraIds db.toEventTables user) query

end Endpoints

end DracVms.Reports
