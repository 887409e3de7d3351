import DracVms.AccessControl.AccessControl
import DracVms.Database.Events
import DracVms.Library.JsString

namespace DracVms.EventLists

open List

open Json (Text)
open Database AccessControl

/-- The events and the alarms beside the directory; the camera of a row exists. -/
structure EventTables extends Directory where
  cameraEvents : List CameraEvent
  alarmInstances : List AlarmInstance
  eventCameras : ∀ event ∈ cameraEvents, ∃ camera ∈ cameras, camera.id = event.cameraId
  alarmCameras : ∀ alarm ∈ alarmInstances, ∀ id, alarm.cameraId = some id →
    ∃ camera ∈ cameras, camera.id = id

inductive Failure where
  | forbidden (message : Text)
  /-- The database client refuses an invalid date. -/
  | invalidDate
  deriving DecidableEq

def viewRefusal : Text := "Sem permissão para visualizar esta câmera.".toList

def playbackRefusal : Text :=
  "Acesso ao histórico indisponível para este grupo. Fale com o administrador.".toList

def assertCanViewCamera (db : Directory) (user : AuthUser) (cameraId : Text) :
    Except Failure Unit :=
  if canViewCamera db user cameraId then .ok () else .error (.forbidden viewRefusal)

def assertCanPlaybackCamera (db : Directory) (user : AuthUser) (cameraId : Text) :
    Except Failure Unit :=
  if canPlaybackCamera db user cameraId then .ok () else .error (.forbidden playbackRefusal)

def isForbidden {Page : Type} : Except Failure Page → Bool
  | .error (.forbidden _) => true
  | _ => false

structure FeedFilters where
  type : Option Text
  severity : Option Text
  fromDate : Option Text
  toDate : Option Text

structure IncidentFilters where
  fromDate : Option Text
  toDate : Option Text
  acknowledged : Option Bool

structure AlarmFilters where
  fromDate : Option Text
  toDate : Option Text
  status : Option AlarmStatus
  severity : Option Text
  priority : Option AlarmPriority
  source : Option AlarmSource
  type : Option Text
  zone : Option Text

/-- One page of a list, each row with the name of its camera. -/
structure Page (Row : Type) where
  items : List (Row × Option Text)
  total : ℕ

section Lists

/- `new Date(text)`, without a value for an invalid date, and the Unicode lower case. -/
variable (newDate : Text → Option ℤ) (toLowerCase : Text → Text) (db : EventTables)

/-- The bound of a period: none where no date was given. -/
def bound (date : Option Text) : Except Failure (Option ℤ) :=
  match truthy date with
  | none => .ok none
  | some text =>
    match newDate text with
    | none => .error .invalidDate
    | some instant => .ok (some instant)

def inPeriod (since until' : Option ℤ) (at' : Instant) : Bool :=
  since.all (fun (bound : ℤ) => bound ≤ at') && until'.all fun (bound : ℤ) => at' ≤ bound

/-- `take` and `skip` over the rows in their order. -/
def page {Row : Type} (rows : List Row) (limit offset : ℤ) : List Row :=
  (rows.drop offset.toNat).take limit.toNat

/-- An absent filter lets every row through. -/
def asked {Value : Type} [DecidableEq Value] (filter : Option Value) (value : Value) : Bool :=
  filter.all fun wanted => value = wanted

def newestEventsFirst (events : List CameraEvent) : List CameraEvent :=
  events.insertionSort fun a b => b.occurredAt ≤ a.occurredAt

def cameraName (cameraId : Text) : Option Text := (db.cameraAt cameraId).map Camera.name

/-- The `where` of the feed. -/
def matchesFeed (cameraIds : List Text) (filters : FeedFilters) (since until' : Option ℤ)
    (event : CameraEvent) : Bool :=
  event.cameraId ∈ cameraIds && asked (truthy filters.type) event.type &&
    asked (truthy filters.severity) event.severity && inPeriod since until' event.occurredAt

/-- `listEventsFeed` of the service. -/
def eventsFeed (cameraIds : List Text) (filters : FeedFilters) (limit offset : Option ℤ) :
    Except Failure (Page CameraEvent) := do
  let since ← bound newDate filters.fromDate
  let until' ← bound newDate filters.toDate
  let found := db.cameraEvents.filter (matchesFeed cameraIds filters since until')
  let items := page (newestEventsFirst found) (max 1 (min 500 (limit.getD 100)))
    (max 0 (offset.getD 0))
  return ⟨items.map fun event => (event, cameraName db event.cameraId), found.length⟩

/-- `findAll`, with the newest camera first. -/
def findAll (ids : Option (List Text)) : List Camera :=
  (db.cameras.filter fun camera => ids.all fun ids => camera.id ∈ ids).insertionSort
    fun a b => b.createdAt ≤ a.createdAt

/-- The ids that a list starts from when it is not asked for one camera. -/
def listedCameraIds (user : AuthUser) : List Text :=
  if isPrivileged user then (findAll db none).map Camera.id
  else getAccessibleCameraIds db.toDirectory user

def consultaHistorica (filters : FeedFilters) : Bool :=
  (truthy filters.fromDate).isSome || (truthy filters.toDate).isSome

/-- The recent feed needs the view of the camera, a query with dates its history. -/
def checkEventsFeed (user : AuthUser) (filters : FeedFilters) (cameraId : Option Text) :
    Except Failure Unit :=
  match truthy cameraId with
  | none => .ok ()
  | some id =>
    if consultaHistorica filters then assertCanPlaybackCamera db.toDirectory user id
    else assertCanViewCamera db.toDirectory user id

/-- `params.cameraId ? [params.cameraId] : params.accessibleCameraIds` -/
def chosenCameraIds (cameraId : Option Text) (accessibleCameraIds : List Text) : List Text :=
  match truthy cameraId with
  | some id => [id]
  | none => accessibleCameraIds

def listEventsFeed (user : AuthUser) (filters : FeedFilters) (cameraId : Option Text)
    (limit offset : Option ℤ) : Except Failure (Page CameraEvent) := do
  checkEventsFeed db user filters cameraId
  let accessibleCameraIds :=
    if isPrivileged user then listedCameraIds db user
    else if consultaHistorica filters then getPlaybackCameraIds db.toDirectory user
    else listedCameraIds db user
  eventsFeed newDate db (chosenCameraIds cameraId accessibleCameraIds) filters limit offset

def checkView (user : AuthUser) (cameraId : Option Text) : Except Failure Unit :=
  match truthy cameraId with
  | none => .ok ()
  | some id => assertCanViewCamera db.toDirectory user id

/-- `startsWith('STREAM_')` -/
def isStreamEvent (event : CameraEvent) : Bool := "STREAM_".toList.isPrefixOf event.type

/-- `metadata.ack.acknowledged`, as a condition reads it. -/
def isAcknowledged (event : CameraEvent) : Bool :=
  let ack := (event.metadata.bind fun value => fieldOf value "ack".toList).bind
    fun value => fieldOf value "acknowledged".toList
  match ack with
  | some (.atom (.bool b)) => b
  | some (.atom (.number n)) => n ≠ 0
  | some (.atom (.string text)) => text ≠ []
  | some (.atom .null) => false
  | some _ => true
  | none => false
where
  fieldOf (value : Metadata) (name : Text) : Option Metadata :=
    match value with
    | .object fields => Json.field fields name
    | _ => none

/-- `listIncidents` of the service. -/
def incidents (cameraIds : List Text) (filters : IncidentFilters) (limit : Option ℤ) :
    Except Failure (Page CameraEvent) := do
  let limit := max 1 (min 200 (limit.getD 50))
  let since ← bound newDate filters.fromDate
  let until' ← bound newDate filters.toDate
  let found := page (newestEventsFirst (db.cameraEvents.filter fun event =>
    event.cameraId ∈ cameraIds && isStreamEvent event && inPeriod since until' event.occurredAt))
    (min (limit * 4) 500) 0
  let filtered := found.filter fun event => asked filters.acknowledged (isAcknowledged event)
  return ⟨(page filtered limit 0).map fun event => (event, cameraName db event.cameraId),
    filtered.length⟩

def listIncidents (user : AuthUser) (filters : IncidentFilters) (cameraId : Option Text)
    (limit : Option ℤ) : Except Failure (Page CameraEvent) := do
  checkView db user cameraId
  incidents newDate db (chosenCameraIds cameraId (listedCameraIds db user)) filters limit

/-- By status, then by priority, then the newest first. -/
def alarmBefore (a b : AlarmInstance) : Prop :=
  a.status.rank < b.status.rank ∨ a.status.rank = b.status.rank ∧
    (a.priority.rank < b.priority.rank ∨ a.priority.rank = b.priority.rank ∧
      b.lastOccurredAt ≤ a.lastOccurredAt)

instance : DecidableRel alarmBefore := fun a b => by
  unfold alarmBefore
  infer_instance

/-- The camera filter of the alarms, which an empty list of ids leaves out. -/
def inCameras (cameraIds : List Text) (alarm : AlarmInstance) : Bool :=
  cameraIds.isEmpty || alarm.cameraId.any fun id => id ∈ cameraIds

def matchesAlarm (filters : AlarmFilters) (since until' : Option ℤ) (alarm : AlarmInstance) :
    Bool :=
  asked filters.status alarm.status && asked (truthy filters.severity) alarm.severity &&
    asked filters.priority alarm.priority && asked filters.source alarm.source &&
    asked (truthy filters.type) alarm.type && inPeriod since until' alarm.lastOccurredAt

/-- `list` of the alarms service. -/
def alarms (cameraIds : List Text) (filters : AlarmFilters) (limit offset : Option ℤ) :
    Except Failure (Page AlarmInstance) := do
  let since ← bound newDate filters.fromDate
  let until' ← bound newDate filters.toDate
  let found := db.alarmInstances.filter fun alarm =>
    inCameras cameraIds alarm && matchesAlarm filters since until' alarm
  let items := page (found.insertionSort alarmBefore) (max 1 (min 200 (limit.getD 100)))
    (max 0 (offset.getD 0))
  return ⟨items.map fun alarm => (alarm, alarm.cameraId.bind (cameraName db)), found.length⟩

/-- The names of the places of a camera that are not blank. -/
def zoneNames (camera : Camera) : List Text :=
  ([camera.area, camera.site,
    (camera.groupId.bind db.groupAt).map CameraGroup.name].filterMap id).filter
      fun name => JsString.trim name ≠ []

def inZone (zone : Text) (camera : Camera) : Bool :=
  (zoneNames db camera).any fun name => decide (zone <:+: toLowerCase (JsString.trim name))

/-- The cameras whose alarms are listed: with a zone, those of the listed ones that lie in it. -/
def alarmCameraIds (user : AuthUser) (zone : Option Text) : List Text :=
  match (zone.map JsString.trim).filter fun text => text ≠ [] with
  | none => listedCameraIds db user
  | some text =>
    ((findAll db (some (listedCameraIds db user))).filter
      (inZone toLowerCase db (toLowerCase text))).map Camera.id

def listAlarms (user : AuthUser) (filters : AlarmFilters) (cameraId : Option Text)
    (limit offset : Option ℤ) : Except Failure (Page AlarmInstance) := do
  checkView db user cameraId
  alarms newDate db (chosenCameraIds cameraId (alarmCameraIds toLowerCase db user filters.zone))
    filters limit offset

/-! What the lists reveal. -/

theorem mem_page {Row : Type} {rows : List Row} {limit offset : ℤ} {row : Row}
    (shown : row ∈ page rows limit offset) : row ∈ rows :=
  mem_of_mem_drop (mem_of_mem_take shown)

theorem exists_page {Row : Type} (rows : List Row) (row : Row) (member : row ∈ rows) (limit : ℤ)
    (positive : 1 ≤ limit) : ∃ offset, 0 ≤ offset ∧ row ∈ page rows limit offset := by
  obtain ⟨before, after, rfl⟩ := append_of_mem member
  refine ⟨before.length, Int.natCast_nonneg _, ?_⟩
  obtain ⟨n, same⟩ : ∃ n, limit.toNat = n + 1 := ⟨limit.toNat - 1, by omega⟩
  unfold page
  rw [Int.toNat_natCast, drop_left, same, take_succ_cons]
  exact mem_cons_self

theorem bound_forbids_nothing (date : Option Text) : isForbidden (bound newDate date) = false := by
  unfold bound
  split
  · rfl
  · split <;> rfl

theorem isForbidden_bind {First Second : Type} (first : Except Failure First)
    (next : First → Except Failure Second) (rest : ∀ value, isForbidden (next value) = false) :
    isForbidden (first >>= next) = isForbidden first := by
  cases first with
  | error failure => cases failure <;> rfl
  | ok value => exact rest value

variable (cameraIds : List Text)

theorem eventsFeed_allows (filters : FeedFilters) (limit offset : Option ℤ) :
    isForbidden (eventsFeed newDate db cameraIds filters limit offset) = false := by
  unfold eventsFeed
  rw [isForbidden_bind, bound_forbids_nothing]
  intro since
  rw [isForbidden_bind, bound_forbids_nothing]
  intro until'
  rfl

variable (filters : IncidentFilters)

theorem incidents_allows (limit : Option ℤ) :
    isForbidden (incidents newDate db cameraIds filters limit) = false := by
  unfold incidents
  rw [isForbidden_bind, bound_forbids_nothing]
  intro since
  rw [isForbidden_bind, bound_forbids_nothing]
  intro until'
  rfl

theorem alarms_allows (filters : AlarmFilters) (limit offset : Option ℤ) :
    isForbidden (alarms newDate db cameraIds filters limit offset) = false := by
  unfold alarms
  rw [isForbidden_bind, bound_forbids_nothing]
  intro since
  rw [isForbidden_bind, bound_forbids_nothing]
  intro until'
  rfl

variable (user : AuthUser)

theorem checkView_iff (id : Text) (given : id ≠ []) :
    isForbidden (checkView db user (some id)) = false ↔
      canViewCamera db.toDirectory user id = true := by
  have asked : truthy (some id) = some id := by simp [truthy, given]
  unfold checkView assertCanViewCamera
  rw [asked]
  dsimp only
  split <;> rename_i allowed <;> simp [isForbidden, allowed]

theorem checkEventsFeed_iff (filters : FeedFilters) (id : Text) (given : id ≠ []) :
    isForbidden (checkEventsFeed db user filters (some id)) = false ↔
      if consultaHistorica filters then canPlaybackCamera db.toDirectory user id = true
      else canViewCamera db.toDirectory user id = true := by
  have asked : truthy (some id) = some id := by simp [truthy, given]
  unfold checkEventsFeed assertCanPlaybackCamera assertCanViewCamera
  rw [asked]
  dsimp only
  split
  all_goals split <;> rename_i allowed <;> simp [isForbidden, allowed]

theorem listEventsFeed_forbidden (filters : FeedFilters) (cameraId : Option Text)
    (limit offset : Option ℤ) :
    isForbidden (listEventsFeed newDate db user filters cameraId limit offset) =
      isForbidden (checkEventsFeed db user filters cameraId) := by
  apply isForbidden_bind
  intro _
  exact eventsFeed_allows newDate db _ filters limit offset

theorem listIncidents_forbidden (cameraId : Option Text) (limit : Option ℤ) :
    isForbidden (listIncidents newDate db user filters cameraId limit) =
      isForbidden (checkView db user cameraId) := by
  apply isForbidden_bind
  intro _
  exact incidents_allows newDate db _ filters limit

theorem listAlarms_forbidden (filters : AlarmFilters) (cameraId : Option Text)
    (limit offset : Option ℤ) :
    isForbidden (listAlarms newDate toLowerCase db user filters cameraId limit offset) =
      isForbidden (checkView db user cameraId) := by
  apply isForbidden_bind
  intro _
  exact alarms_allows newDate db _ filters limit offset

theorem eventsFeed_items (filters : FeedFilters) (limit offset : Option ℤ)
    (shown : Page CameraEvent)
    (answer : eventsFeed newDate db cameraIds filters limit offset = .ok shown) :
    ∀ item ∈ shown.items, item.1 ∈ db.cameraEvents ∧ item.1.cameraId ∈ cameraIds := by
  unfold eventsFeed at answer
  cases since : bound newDate filters.fromDate with
  | error failure =>
    rw [since] at answer
    cases answer
  | ok since' =>
    cases until' : bound newDate filters.toDate with
    | error failure =>
      rw [since, until'] at answer
      cases answer
    | ok until'' =>
      rw [since, until'] at answer
      cases answer
      intro item listed
      obtain ⟨event, present, rfl⟩ := mem_map.mp listed
      have sorted := mem_page present
      unfold newestEventsFirst at sorted
      rw [mem_insertionSort, mem_filter] at sorted
      simp only [matchesFeed, Bool.and_eq_true, decide_eq_true_eq] at sorted
      exact ⟨sorted.1, sorted.2.1.1.1⟩

theorem eventsFeed_plain (limit offset : Option ℤ) :
    eventsFeed newDate db cameraIds ⟨none, none, none, none⟩ limit offset =
      .ok ⟨(page (newestEventsFirst (db.cameraEvents.filter
          (matchesFeed cameraIds ⟨none, none, none, none⟩ none none)))
          (max 1 (min 500 (limit.getD 100))) (max 0 (offset.getD 0))).map
            fun event => (event, cameraName db event.cameraId),
        (db.cameraEvents.filter
          (matchesFeed cameraIds ⟨none, none, none, none⟩ none none)).length⟩ := rfl

theorem incidents_items (limit : Option ℤ) (shown : Page CameraEvent)
    (answer : incidents newDate db cameraIds filters limit = .ok shown) :
    ∀ item ∈ shown.items, item.1 ∈ db.cameraEvents ∧ item.1.cameraId ∈ cameraIds := by
  unfold incidents at answer
  cases since : bound newDate filters.fromDate with
  | error failure =>
    rw [since] at answer
    cases answer
  | ok since' =>
    cases until' : bound newDate filters.toDate with
    | error failure =>
      rw [since, until'] at answer
      cases answer
    | ok until'' =>
      rw [since, until'] at answer
      cases answer
      intro item listed
      obtain ⟨event, present, rfl⟩ := mem_map.mp listed
      have sorted := mem_page (mem_of_mem_filter (mem_page present))
      unfold newestEventsFirst at sorted
      rw [mem_insertionSort, mem_filter] at sorted
      simp only [Bool.and_eq_true, decide_eq_true_eq] at sorted
      exact ⟨sorted.1, sorted.2.1.1⟩

theorem mem_listedCameraIds_view (camera : Camera) (member : camera ∈ db.cameras)
    (unprivileged : isPrivileged user = false) (listed : camera.id ∈ listedCameraIds db user) :
    canViewCamera db.toDirectory user camera.id = true := by
  unfold listedCameraIds at listed
  rw [if_neg (by simp [unprivileged])] at listed
  exact canViewCamera_of_accessible db.toDirectory user camera member listed

/-- No event belongs to a camera that is hidden from the user. -/
def NothingHidden (user : AuthUser) : Prop :=
  ∀ event ∈ db.cameraEvents, canViewCamera db.toDirectory user event.cameraId = true

theorem events_feed_reveals : (∀ filters limit offset shown,
        listEventsFeed newDate db user filters none limit offset = .ok shown →
        ∀ item ∈ shown.items, isForbidden
          (listEventsFeed newDate db user filters (some item.1.cameraId) limit offset) = false) ↔
      (isPrivileged user = true → NothingHidden db user) := by
  have none' : truthy none = none := rfl
  constructor
  · intro confined privileged event member
    have known : event.cameraId ∈ listedCameraIds db user := by
      obtain ⟨camera, present, same⟩ := db.eventCameras event member
      unfold listedCameraIds findAll
      rw [if_pos privileged, ← same]
      apply mem_map_of_mem
      rw [mem_insertionSort, mem_filter]
      exact ⟨present, rfl⟩
    have sorted : event ∈ newestEventsFirst (db.cameraEvents.filter
        (matchesFeed (listedCameraIds db user) ⟨none, none, none, none⟩ none none)) := by
      unfold newestEventsFirst
      rw [mem_insertionSort, mem_filter]
      refine ⟨member, ?_⟩
      simp [matchesFeed, known, none', asked, inPeriod]
    obtain ⟨offset, start, paged⟩ := exists_page _ event sorted 500 (by omega)
    have given := eventsFeed_plain newDate db (listedCameraIds db user) (some 500) (some offset)
    have listed : listEventsFeed newDate db user ⟨none, none, none, none⟩ none (some 500)
        (some offset) =
          eventsFeed newDate db (listedCameraIds db user) ⟨none, none, none, none⟩ (some 500)
            (some offset) := by
      unfold listEventsFeed
      rw [if_pos privileged]
      rfl
    have last : max 0 offset = offset := max_eq_right start
    rw [Option.getD_some, Option.getD_some, last] at given
    have allowed := confined _ _ _ _ (listed.trans given) _ (mem_map_of_mem paged)
    rw [listEventsFeed_forbidden] at allowed
    obtain ⟨camera, present, same⟩ := db.eventCameras event member
    rw [← same, checkEventsFeed_iff db user _ camera.id (db.named camera present), same] at allowed
    exact allowed
  · intro hidden filters limit offset shown answer item listed
    rw [listEventsFeed_forbidden]
    have confined := eventsFeed_items newDate db _ filters limit offset shown answer item listed
    obtain ⟨present, chosen⟩ := confined
    obtain ⟨camera, member, same⟩ := db.eventCameras item.1 present
    have chosen' : camera.id ∈ (if isPrivileged user then listedCameraIds db user
        else if consultaHistorica filters then getPlaybackCameraIds db.toDirectory user
        else listedCameraIds db user) := by
      rw [same]
      exact chosen
    rw [← same, checkEventsFeed_iff db user filters camera.id (db.named camera member)]
    cases privileged : isPrivileged user with
    | true =>
      have seen := hidden privileged item.1 present
      rw [← same] at seen
      have played : canPlaybackCamera db.toDirectory user camera.id = true := by
        simp [canPlaybackCamera, seen, privileged]
      split
      · exact played
      · exact seen
    | false =>
      rw [privileged] at chosen'
      split
      · rename_i historical
        rw [if_pos historical] at chosen'
        exact canPlaybackCamera_of_listed db.toDirectory user camera member privileged chosen'
      · rename_i recent
        rw [if_neg recent] at chosen'
        exact mem_listedCameraIds_view db user camera member privileged chosen'

theorem incidents_reveal (hidden : isPrivileged user = true → NothingHidden db user)
    (filters : IncidentFilters) (limit : Option ℤ) (shown : Page CameraEvent)
    (answer : listIncidents newDate db user filters none limit = .ok shown) :
    ∀ item ∈ shown.items, isForbidden
      (listIncidents newDate db user filters (some item.1.cameraId) limit) = false := by
  intro item listed
  rw [listIncidents_forbidden]
  obtain ⟨present, chosen⟩ := incidents_items newDate db _ filters limit shown answer item listed
  obtain ⟨camera, member, same⟩ := db.eventCameras item.1 present
  rw [← same, checkView_iff db user camera.id (db.named camera member)]
  cases privileged : isPrivileged user with
  | true =>
    rw [same]
    exact hidden privileged item.1 present
  | false =>
    apply mem_listedCameraIds_view db user camera member privileged
    rw [same]
    exact chosen

theorem alarms_answer (filters : AlarmFilters) (limit offset : Option ℤ) (since until' : Option ℤ)
    (first : bound newDate filters.fromDate = .ok since)
    (second : bound newDate filters.toDate = .ok until') :
    alarms newDate db cameraIds filters limit offset =
      .ok ⟨(page ((db.alarmInstances.filter fun alarm =>
            inCameras cameraIds alarm && matchesAlarm filters since until' alarm).insertionSort
              alarmBefore) (max 1 (min 200 (limit.getD 100))) (max 0 (offset.getD 0))).map
            fun alarm => (alarm, alarm.cameraId.bind (cameraName db)),
        (db.alarmInstances.filter fun alarm =>
          inCameras cameraIds alarm && matchesAlarm filters since until' alarm).length⟩ := by
  unfold alarms
  rw [first, second]
  rfl

theorem alarms_items (filters : AlarmFilters) (limit offset : Option ℤ) (shown : Page AlarmInstance)
    (answer : alarms newDate db cameraIds filters limit offset = .ok shown) :
    ∃ since until', bound newDate filters.fromDate = .ok since ∧
      bound newDate filters.toDate = .ok until' ∧ ∀ item ∈ shown.items,
        item.1 ∈ db.alarmInstances ∧ inCameras cameraIds item.1 = true ∧
          matchesAlarm filters since until' item.1 = true := by
  cases since : bound newDate filters.fromDate with
  | error failure =>
    unfold alarms at answer
    rw [since] at answer
    cases answer
  | ok since' =>
    cases until' : bound newDate filters.toDate with
    | error failure =>
      unfold alarms at answer
      rw [since, until'] at answer
      cases answer
    | ok until'' =>
      rw [alarms_answer newDate db cameraIds filters limit offset since' until'' since until']
        at answer
      cases answer
      refine ⟨since', until'', rfl, rfl, ?_⟩
      intro item listed
      obtain ⟨alarm, present, rfl⟩ := mem_map.mp listed
      have sorted := mem_page present
      rw [mem_insertionSort, mem_filter, Bool.and_eq_true] at sorted
      exact sorted

theorem alarmCameraIds_listed (zone : Option Text) (id : Text)
    (chosen : id ∈ alarmCameraIds toLowerCase db user zone) : id ∈ listedCameraIds db user := by
  unfold alarmCameraIds at chosen
  split at chosen
  · exact chosen
  · obtain ⟨camera, kept, rfl⟩ := mem_map.mp chosen
    have known := mem_of_mem_filter kept
    unfold findAll at known
    rw [mem_insertionSort, mem_filter] at known
    exact of_decide_eq_true known.2

/-- Where an alarm matches the filters, some listed camera lies in the zone, and to a privileged
user no matching alarm of these cameras is hidden. -/
def AlarmsConfined (user : AuthUser) (filters : AlarmFilters) : Prop :=
  ∀ since until', bound newDate filters.fromDate = .ok since →
    bound newDate filters.toDate = .ok until' → ∀ alarm ∈ db.alarmInstances,
      matchesAlarm filters since until' alarm = true →
        alarmCameraIds toLowerCase db user filters.zone ≠ [] ∧
          (isPrivileged user = true → ∀ id, alarm.cameraId = some id →
            id ∈ alarmCameraIds toLowerCase db user filters.zone →
              canViewCamera db.toDirectory user id = true)

theorem alarms_reveal (filters : AlarmFilters) : (∀ limit offset shown,
        listAlarms newDate toLowerCase db user filters none limit offset = .ok shown →
        (∀ item ∈ shown.items, ∀ id, item.1.cameraId = some id → isForbidden
          (listAlarms newDate toLowerCase db user filters (some id) limit offset) = false) ∧
        (alarmCameraIds toLowerCase db user filters.zone = [] → shown.items = [])) ↔
      AlarmsConfined newDate toLowerCase db user filters := by
  have whole : ∀ limit offset,
      listAlarms newDate toLowerCase db user filters none limit offset =
        alarms newDate db (alarmCameraIds toLowerCase db user filters.zone) filters limit offset :=
    fun _ _ => rfl
  constructor
  · intro confined since until' first second alarm member matching
    have shows : inCameras (alarmCameraIds toLowerCase db user filters.zone) alarm = true →
        ∃ limit offset shown,
          listAlarms newDate toLowerCase db user filters none limit offset = .ok shown ∧
            (alarm, alarm.cameraId.bind (cameraName db)) ∈ shown.items := by
      intro inside
      have sorted : alarm ∈ (db.alarmInstances.filter fun alarm =>
          inCameras (alarmCameraIds toLowerCase db user filters.zone) alarm &&
            matchesAlarm filters since until' alarm).insertionSort alarmBefore := by
        rw [mem_insertionSort, mem_filter, inside, matching]
        exact ⟨member, rfl⟩
      obtain ⟨offset, start, paged⟩ := exists_page _ alarm sorted 200 (by omega)
      have given := alarms_answer newDate db (alarmCameraIds toLowerCase db user filters.zone)
        filters (some 200) (some offset) since until' first second
      have last : max 0 offset = offset := max_eq_right start
      rw [Option.getD_some, Option.getD_some, last] at given
      exact ⟨some 200, some offset, _, (whole _ _).trans given, mem_map_of_mem paged⟩
    constructor
    · intro empty
      have inside : inCameras (alarmCameraIds toLowerCase db user filters.zone) alarm = true := by
        simp [inCameras, empty]
      obtain ⟨limit, offset, shown, answer, listed⟩ := shows inside
      rw [(confined limit offset shown answer).2 empty] at listed
      exact absurd listed not_mem_nil
    · intro _ id camera chosen
      have inside : inCameras (alarmCameraIds toLowerCase db user filters.zone) alarm = true := by
        simp [inCameras, camera, chosen]
      obtain ⟨limit, offset, shown, answer, listed⟩ := shows inside
      have allowed := (confined limit offset shown answer).1 _ listed id camera
      obtain ⟨row, present, rfl⟩ := db.alarmCameras alarm member id camera
      rw [listAlarms_forbidden, checkView_iff db user row.id (db.named row present)] at allowed
      exact allowed
  · intro confined limit offset shown answer
    obtain ⟨since, until', first, second, rows⟩ :=
      alarms_items newDate db _ filters limit offset shown answer
    constructor
    · intro item listed id camera
      obtain ⟨member, inside, matching⟩ := rows item listed
      obtain ⟨someCamera, hidden⟩ := confined since until' first second item.1 member matching
      obtain ⟨row, present, rfl⟩ := db.alarmCameras item.1 member id camera
      have chosen : row.id ∈ alarmCameraIds toLowerCase db user filters.zone := by
        simp only [inCameras, camera, Option.any_some, Bool.or_eq_true, List.isEmpty_iff,
          decide_eq_true_eq] at inside
        exact inside.resolve_left someCamera
      rw [listAlarms_forbidden, checkView_iff db user row.id (db.named row present)]
      cases privileged : isPrivileged user with
      | true => exact hidden privileged row.id camera chosen
      | false =>
        apply mem_listedCameraIds_view db user row present privileged
        exact alarmCameraIds_listed toLowerCase db user filters.zone row.id chosen
    · intro empty
      apply eq_nil_iff_forall_not_mem.mpr
      intro item listed
      obtain ⟨member, -, matching⟩ := rows item listed
      exact (confined since until' first second item.1 member matching).1 empty

/-- The three lists together, for one user and one combination of alarm filters. -/
theorem lists_reveal_iff (user : AuthUser) (alarmFilters : AlarmFilters) :
    ((∀ filters limit offset shown,
        listEventsFeed newDate db user filters none limit offset = .ok shown →
        ∀ item ∈ shown.items, isForbidden
          (listEventsFeed newDate db user filters (some item.1.cameraId) limit offset) = false) ∧
      (∀ filters limit shown,
        listIncidents newDate db user filters none limit = .ok shown →
        ∀ item ∈ shown.items, isForbidden
          (listIncidents newDate db user filters (some item.1.cameraId) limit) = false) ∧
      ∀ limit offset shown,
        listAlarms newDate toLowerCase db user alarmFilters none limit offset = .ok shown →
        (∀ item ∈ shown.items, ∀ id, item.1.cameraId = some id → isForbidden
          (listAlarms newDate toLowerCase db user alarmFilters (some id) limit offset) = false) ∧
        (alarmCameraIds toLowerCase db user alarmFilters.zone = [] → shown.items = [])) ↔
      (isPrivileged user = true → NothingHidden db user) ∧
        AlarmsConfined newDate toLowerCase db user alarmFilters := by
  constructor
  · rintro ⟨feed, -, alarms⟩
    exact ⟨(events_feed_reveals newDate db user).mp feed,
      (alarms_reveal newDate toLowerCase db user alarmFilters).mp alarms⟩
  · rintro ⟨hidden, confined⟩
    refine ⟨(events_feed_reveals newDate db user).mpr hidden, ?_, ?_⟩
    · intro filters limit shown answer
      exact incidents_reveal newDate db user hidden filters limit shown answer
    · exact (alarms_reveal newDate toLowerCase db user alarmFilters).mpr confined

end Lists

def yard : Camera :=
  ⟨['c'], [], .online, none, true, none, false, none, none, none, 0⟩

def yardAlarm : AlarmInstance :=
  ⟨['m'], some ['c'], none, .motion, [], [], [], [], .p3, .open, none, none, 1, 0, 0, none, none,
    none, none, none, none⟩

/-- One camera with an alarm, and nobody who was given it. -/
def lonelyYard : EventTables :=
  { users := [], cameraGroups := [], cameras := [yard], cameraPermissions := []
    cameraEvents := [], alarmInstances := [yardAlarm]
    userIds := nodup_nil, groupIds := nodup_nil, cameraIds := nodup_singleton _
    named := forall_mem_singleton.mpr (cons_ne_nil _ _)
    permitted := fun _ listed => absurd listed not_mem_nil
    eventCameras := fun _ listed => absurd listed not_mem_nil
    alarmCameras := by
      intro alarm listed id camera
      obtain rfl := mem_singleton.mp listed
      cases camera
      exact ⟨yard, mem_singleton_self _, rfl⟩ }

def stranger : AuthUser := ⟨['u'], .viewer⟩

/-- A user without any camera is shown the alarm, and is turned away when it asks for its camera. -/
theorem stranger_sees_alarm :
    (match listAlarms (fun _ => none) JsString.toLowerCase lonelyYard stranger
        ⟨none, none, none, none, none, none, none, none⟩ none none none with
      | .ok shown => shown.items.map fun item => (item.1.id, item.1.cameraId)
      | .error _ => []) = [(['m'], some ['c'])] ∧
    isForbidden (listAlarms (fun _ => none) JsString.toLowerCase lonelyYard stranger
        ⟨none, none, none, none, none, none, none, none⟩ (some ['c']) none none) = true := by
  decide +kernel

end DracVms.EventLists
