import DracVms.Cameras.Reports

namespace DracVms.Reports

open List

open Json (Text)
open Database AccessControl EventLists

/-- The entry is about one of the cameras, or about an event, a recording or an alarm of one. -/
def isAbout (db : ReportTables) (ids : List Text) (entry : AuditLog) : Bool :=
  entry.entityId.any fun id =>
    id ∈ ids || (db.cameraEvents.any fun event => event.id = id && event.cameraId ∈ ids) ||
      (db.recordings.any fun recording => recording.id = id && recording.cameraId ∈ ids) ||
        db.alarmInstances.any fun alarm => alarm.id = id && alarm.cameraId.any fun c => c ∈ ids

/-- Two states that agree on the permissions of the user and on every row that belongs to the
cameras it may access. -/
structure Agree (user : AuthUser) (db other : ReportTables) : Prop where
  permissions : other.cameraPermissions.filter (fun perm => perm.userId = user.id) =
    db.cameraPermissions.filter fun perm => perm.userId = user.id
  accessible : ∀ id, id ∈ getAccessibleCameraIds other.toDirectory user ↔
    id ∈ getAccessibleCameraIds db.toDirectory user
  cameras : other.cameras.filter
      (fun camera => camera.id ∈ getAccessibleCameraIds db.toDirectory user) =
    db.cameras.filter fun camera => camera.id ∈ getAccessibleCameraIds db.toDirectory user
  events : other.cameraEvents.filter
      (fun event => event.cameraId ∈ getAccessibleCameraIds db.toDirectory user) =
    db.cameraEvents.filter fun event => event.cameraId ∈ getAccessibleCameraIds db.toDirectory user
  recordings : other.recordings.filter
      (fun recording => recording.cameraId ∈ getAccessibleCameraIds db.toDirectory user) =
    db.recordings.filter
      fun recording => recording.cameraId ∈ getAccessibleCameraIds db.toDirectory user
  alarms : other.alarmInstances.filter
      (fun alarm => alarm.cameraId.any fun id =>
        id ∈ getAccessibleCameraIds db.toDirectory user) =
    db.alarmInstances.filter fun alarm => alarm.cameraId.any fun id =>
      id ∈ getAccessibleCameraIds db.toDirectory user
  audit : other.auditLogs.filter (isAbout other (getAccessibleCameraIds db.toDirectory user)) =
    db.auditLogs.filter (isAbout db (getAccessibleCameraIds db.toDirectory user))

/-- The answer is the same in every state that agrees with this one. -/
def Confined {Answer : Type} (user : AuthUser) (answer : ReportTables → Answer)
    (db : ReportTables) : Prop :=
  ∀ other, Agree user db other → answer other = answer db

section Rows

variable {Row : Type}

section

variable {first second : List Row} {own : Row → Bool} (same : first.filter own = second.filter own)
  (choice : Row → Bool) (inside : ∀ row, choice row = true → own row = true)

include same inside

/-- Lists that agree on some rows agree on every selection of these. -/
theorem filter_of_own : first.filter choice = second.filter choice := by
  have through : ∀ rows : List Row, rows.filter choice = (rows.filter own).filter choice := by
    intro rows
    rw [filter_filter]
    apply filter_congr
    intro row _
    cases chosen : choice row with
    | false => rw [Bool.false_and]
    | true => rw [inside row chosen, Bool.true_and]
  rw [through first, same, ← through second]

theorem countP_of_own : first.countP choice = second.countP choice := by
  rw [countP_eq_length_filter, countP_eq_length_filter, filter_of_own same choice inside]

end

theorem orderedInsert_past (key : Row → ℤ) (row : Row) (tops lows : List Row)
    (above : ∀ top ∈ tops, key row < key top) :
    (tops ++ lows).orderedInsert (fun a b => key b ≤ key a) row =
      tops ++ lows.orderedInsert (fun a b => key b ≤ key a) row := by
  induction tops with
  | nil => rfl
  | cons top tops ih =>
    have skip : ¬key top ≤ key row := not_le.mpr (above top mem_cons_self)
    rw [cons_append, orderedInsert_cons, if_neg skip,
      ih fun top listed => above top (mem_cons_of_mem _ listed)]
    rfl

theorem descending_top (key : Row → ℤ) (top : ℤ) (rows : List Row)
    (bounded : ∀ row ∈ rows, key row ≤ top) :
    descending key rows = rows.filter (fun row => key row = top) ++
      descending key (rows.filter fun row => key row ≠ top) := by
  unfold descending
  induction rows with
  | nil => rfl
  | cons row rows ih =>
    have later := ih fun row listed => bounded row (mem_cons_of_mem _ listed)
    rw [insertionSort_cons, later]
    by_cases first : key row = top
    · rw [filter_cons_of_pos (by simp [first]), filter_cons_of_neg (by simp [first]), cons_append]
      apply KeyedList.orderedInsert_least
      intro other listed
      rw [← later, mem_insertionSort] at listed
      rw [first]
      exact bounded other (mem_cons_of_mem _ listed)
    · rw [filter_cons_of_neg (by simp [first]), filter_cons_of_pos (by simp [first]),
        insertionSort_cons]
      apply orderedInsert_past
      intro other listed
      have largest := of_decide_eq_true (mem_filter.mp listed).2
      have below := bounded row mem_cons_self
      omega

theorem mem_descending (key : Row → ℤ) (rows : List Row) (row : Row) :
    row ∈ descending key rows ↔ row ∈ rows := mem_insertionSort _

theorem filter_take_descending (key : Row → ℤ) (top : ℤ) (rows : List Row) (n : ℕ)
    (bounded : ∀ row ∈ rows, key row ≤ top) :
    ((descending key rows).take n).filter (fun row => key row = top) =
      (rows.filter fun row => key row = top).take n := by
  rw [descending_top key top rows bounded, take_append, filter_append]
  have firsts : ((rows.filter fun row => key row = top).take n).filter
      (fun row => key row = top) = (rows.filter fun row => key row = top).take n := by
    apply filter_eq_self.mpr
    intro row listed
    exact (mem_filter.mp (mem_of_mem_take listed)).2
  have rest : ((descending key (rows.filter fun row => key row ≠ top)).take
      (n - (rows.filter fun row => key row = top).length)).filter (fun row => key row = top) =
        [] := by
    apply filter_eq_nil_iff.mpr
    intro row listed
    have other := (mem_descending key _ row).mp (mem_of_mem_take listed)
    simpa using (mem_filter.mp other).2
  rw [firsts, rest, append_nil]

end Rows

variable (around : Surroundings)

section Agreement

variable {user : AuthUser} {db other : ReportTables}

theorem camerasOf_agree (agree : Agree user db other) :
    camerasOf other (some (getAccessibleCameraIds other.toDirectory user)) =
      camerasOf db (some (getAccessibleCameraIds db.toDirectory user)) := by
  unfold camerasOf
  simp only [Option.all_some]
  rw [← agree.cameras]
  apply filter_congr
  intro camera _
  rw [decide_eq_decide]
  exact agree.accessible camera.id

theorem camerasOf_own {db : ReportTables} {ids : List Text} {id : Text}
    (listed : id ∈ (camerasOf db (some ids)).map Camera.id) : id ∈ ids := by
  obtain ⟨camera, chosen, rfl⟩ := mem_map.mp listed
  exact of_decide_eq_true (mem_filter.mp chosen).2

theorem idsOf_unprivileged (db : ReportTables) (unprivileged : isPrivileged user = false) :
    idsOf db user = some (getAccessibleCameraIds db.toDirectory user) := by
  simp [idsOf, unprivileged]

section

variable (agree : Agree user db other) (cameraIds : List Text) (since : ℤ)
  (inside : ∀ id ∈ cameraIds, id ∈ getAccessibleCameraIds db.toDirectory user)

include agree inside

theorem incidents_agree : other.cameraEvents.filter (isIncidentSince cameraIds since) =
      db.cameraEvents.filter (isIncidentSince cameraIds since) := by
  apply filter_of_own agree.events
  intro event chosen
  simp only [isIncidentSince, Bool.and_eq_true, decide_eq_true_eq] at chosen
  exact decide_eq_true (inside _ chosen.1.1)

theorem recoveries_agree : other.cameraEvents.filter (isRecoverySince cameraIds since) =
      db.cameraEvents.filter (isRecoverySince cameraIds since) := by
  apply filter_of_own agree.events
  intro event chosen
  simp only [isRecoverySince, Bool.and_eq_true, decide_eq_true_eq] at chosen
  exact decide_eq_true (inside _ chosen.1.1)

end

theorem newest_own {db : ReportTables} {ids : List Text} :
    ∀ id ∈ (newestCamerasFirst (camerasOf db (some ids))).map Camera.id, id ∈ ids := by
  intro id listed
  obtain ⟨camera, chosen, rfl⟩ := mem_map.mp listed
  unfold newestCamerasFirst at chosen
  rw [mem_descending] at chosen
  exact camerasOf_own (mem_map_of_mem chosen)

theorem healthScores_confined (unprivileged : isPrivileged user = false)
    (agree : Agree user db other) :
    healthScores around other user = healthScores around db user := by
  unfold healthScores getHealthScores
  dsimp only
  rw [idsOf_unprivileged db unprivileged, idsOf_unprivileged other unprivileged,
    camerasOf_agree agree, incidents_agree agree _ _ newest_own]

theorem reliability_confined (days : ℤ) (unprivileged : isPrivileged user = false)
    (agree : Agree user db other) :
    reliability around other user days = reliability around db user days := by
  unfold reliability getReliabilityReport
  dsimp only
  rw [idsOf_unprivileged db unprivileged, idsOf_unprivileged other unprivileged,
    camerasOf_agree agree, incidents_agree agree _ _ fun id => camerasOf_own,
    recoveries_agree agree _ _ fun id => camerasOf_own]

theorem overview_agree (unprivileged : isPrivileged user = false) (agree : Agree user db other)
    (some' : camerasOf db (some (getAccessibleCameraIds db.toDirectory user)) ≠ []) :
    overview around other user = overview around db user := by
  have events := countP_of_own agree.events
  have recordings := countP_of_own agree.recordings
  have nonempty : ((newestCamerasFirst (camerasOf db
      (some (getAccessibleCameraIds db.toDirectory user)))).map Camera.id).isEmpty = false := by
    cases listed : camerasOf db (some (getAccessibleCameraIds db.toDirectory user)) with
    | nil => exact absurd listed some'
    | cons camera rest =>
      apply Bool.eq_false_iff.mpr
      intro empty
      have none' := map_eq_nil_iff.mp (List.isEmpty_iff.mp empty)
      have present : camera ∈ newestCamerasFirst (camera :: rest) := by
        unfold newestCamerasFirst
        rw [mem_descending]
        exact mem_cons_self
      rw [none'] at present
      exact absurd present not_mem_nil
  have inside : ∀ id, inCamerasOrAll ((newestCamerasFirst (camerasOf db
      (some (getAccessibleCameraIds db.toDirectory user)))).map Camera.id) id = true →
        id ∈ getAccessibleCameraIds db.toDirectory user := by
    intro id chosen
    rw [inCamerasOrAll, nonempty, Bool.false_or, decide_eq_true_eq] at chosen
    exact newest_own id chosen
  unfold overview getOverview
  dsimp only
  rw [idsOf_unprivileged db unprivileged, idsOf_unprivileged other unprivileged,
    camerasOf_agree agree, events, recordings]
  · intro recording chosen
    rw [Bool.and_eq_true] at chosen
    exact decide_eq_true (inside _ chosen.1)
  · intro event chosen
    rw [Bool.and_eq_true] at chosen
    exact decide_eq_true (inside _ chosen.1)

theorem cameraAt_agree (agree : Agree user db other) (id : Text)
    (known : id ∈ getAccessibleCameraIds db.toDirectory user) :
    other.cameraAt id = db.cameraAt id := by
  have through : ∀ cameras : List Camera, KeyedList.lookup Camera.id cameras id =
      KeyedList.lookup Camera.id (cameras.filter fun camera =>
        camera.id ∈ getAccessibleCameraIds db.toDirectory user) id := by
    intro cameras
    unfold KeyedList.lookup
    rw [List.find?_filter]
    congr 1
    funext camera
    by_cases same : camera.id = id
    · simp [same, known]
    · simp [same]
  unfold Directory.cameraAt
  rw [through other.cameras, agree.cameras, ← through db.cameras]

theorem checkView_agree (agree : Agree user db other)
    (cameraId : Option Text)
    (inside : ∀ id, truthy cameraId = some id → id ∈ getAccessibleCameraIds db.toDirectory user) :
    checkView other.toEventTables user cameraId = checkView db.toEventTables user cameraId := by
  unfold checkView
  cases given : truthy cameraId with
  | none => rfl
  | some id =>
    have known := inside id given
    have same := cameraAt_agree agree id known
    have view :
        canViewCamera other.toDirectory user id = canViewCamera db.toDirectory user id := by
      cases found : db.cameraAt id with
      | none =>
        rw [found] at same
        rw [canViewCamera_missing db.toDirectory user id found,
          canViewCamera_missing other.toDirectory user id same]
      | some camera =>
        rw [found] at same
        obtain ⟨member, named⟩ := Directory.cameraAt_some found
        obtain ⟨member', named'⟩ := Directory.cameraAt_some same
        have first := canViewCamera_of_accessible db.toDirectory user camera member
          (by rw [named]; exact known)
        have second := canViewCamera_of_accessible other.toDirectory user camera member'
          (by rw [named]; exact (agree.accessible id).mpr known)
        rw [named] at first second
        rw [first, second]
    unfold assertCanViewCamera
    dsimp only
    rw [view]

theorem reliabilityTrend_agree (days : ℤ) (cameraId : Option Text)
    (unprivileged : isPrivileged user = false) (agree : Agree user db other)
    (inside : ∀ id, truthy cameraId = some id → id ∈ getAccessibleCameraIds db.toDirectory user) :
    reliabilityTrend around other user days cameraId =
      reliabilityTrend around db user days cameraId := by
  unfold reliabilityTrend
  rw [checkView_agree agree cameraId inside]
  unfold getReliabilityTrend
  dsimp only
  rw [idsOf_unprivileged db unprivileged, idsOf_unprivileged other unprivileged,
    camerasOf_agree agree]
  have own : ∀ id ∈ targetOr ((truthy cameraId).filter fun id =>
        id ∈ (camerasOf db (some (getAccessibleCameraIds db.toDirectory user))).map Camera.id)
      ((camerasOf db (some (getAccessibleCameraIds db.toDirectory user))).map Camera.id),
      id ∈ getAccessibleCameraIds db.toDirectory user := by
    intro id listed
    unfold targetOr at listed
    split at listed
    · rename_i target chosen
      rw [mem_singleton.mp listed]
      exact camerasOf_own (of_decide_eq_true (Option.filter_eq_some_iff.mp chosen).2)
    · exact camerasOf_own listed
  rw [incidents_agree agree _ _ own, recoveries_agree agree _ _ own]

theorem chosenCameraIds_own (ids : List Text) (cameraId : Option Text)
    (inside : ∀ id, truthy cameraId = some id → id ∈ ids) :
    ∀ id ∈ chosenCameraIds cameraId ids, id ∈ ids := by
  intro id listed
  unfold chosenCameraIds at listed
  split at listed
  · rename_i target given
    rw [mem_singleton.mp listed]
    exact inside target given
  · exact listed

theorem chosenCameraIds_congr {first second : List Text} (cameraId : Option Text)
    (same : ∀ id, id ∈ first ↔ id ∈ second) (id : Text) :
    id ∈ chosenCameraIds cameraId first ↔ id ∈ chosenCameraIds cameraId second := by
  unfold chosenCameraIds
  split
  · exact Iff.rfl
  · exact same id

/-- The events and the alarms of the timeline. -/
def ownItems (db : ReportTables) (cameraIds : List Text) (since until' : ℤ) (limit : ℕ) :
    List TimelineItem :=
  let events := (descending (fun event => ((event.occurredAt : ℕ) : ℤ))
    (db.cameraEvents.filter fun event =>
      event.cameraId ∈ cameraIds && within since until' event.occurredAt)).take limit
  let alarms := (descending (fun alarm => ((alarm.lastOccurredAt : ℕ) : ℤ))
    (db.alarmInstances.filter fun alarm =>
      alarm.cameraId.any (fun id => id ∈ cameraIds) &&
        within since until' alarm.lastOccurredAt)).take limit
  events.map (eventItem db alarms) ++ alarms.map (alarmItem db)

def auditItems (db : ReportTables) (since until' : ℤ) (limit : ℕ) : List TimelineItem :=
  ((descending (fun entry => ((entry.createdAt : ℕ) : ℤ))
    (db.auditLogs.filter fun entry =>
      within since until' entry.createdAt && isOperation entry)).take limit).map auditItem

theorem timelineItems_eq (db : ReportTables) (cameraIds : List Text) (since until' : ℤ)
    (limit : ℕ) : timelineItems db cameraIds since until' limit =
      ownItems db cameraIds since until' limit ++ auditItems db since until' limit := rfl

theorem ownItems_agree (agree : Agree user db other) (cameraId : Option Text)
    (inside : ∀ id, truthy cameraId = some id → id ∈ getAccessibleCameraIds db.toDirectory user)
    (since until' : ℤ) (limit : ℕ) :
    ownItems other (chosenCameraIds cameraId (getAccessibleCameraIds other.toDirectory user)) since
        until' limit =
      ownItems db (chosenCameraIds cameraId (getAccessibleCameraIds db.toDirectory user)) since
        until' limit := by
  have same := chosenCameraIds_congr cameraId agree.accessible
  have own := chosenCameraIds_own _ cameraId inside
  have events : other.cameraEvents.filter (fun event =>
        event.cameraId ∈ chosenCameraIds cameraId
          (getAccessibleCameraIds other.toDirectory user) && within since until' event.occurredAt) =
      db.cameraEvents.filter fun event =>
        event.cameraId ∈ chosenCameraIds cameraId
          (getAccessibleCameraIds db.toDirectory user) && within since until' event.occurredAt := by
    simp only [same]
    apply filter_of_own agree.events
    intro event chosen
    rw [Bool.and_eq_true, decide_eq_true_eq] at chosen
    exact decide_eq_true (own _ chosen.1)
  have alarms : other.alarmInstances.filter (fun alarm =>
        alarm.cameraId.any (fun id => id ∈ chosenCameraIds cameraId
          (getAccessibleCameraIds other.toDirectory user)) &&
            within since until' alarm.lastOccurredAt) =
      db.alarmInstances.filter fun alarm =>
        alarm.cameraId.any (fun id => id ∈ chosenCameraIds cameraId
          (getAccessibleCameraIds db.toDirectory user)) &&
            within since until' alarm.lastOccurredAt := by
    simp only [same]
    apply filter_of_own agree.alarms
    intro alarm chosen
    rw [Bool.and_eq_true, Option.any_eq_true] at chosen
    obtain ⟨⟨id, camera, listed⟩, -⟩ := chosen
    rw [camera]
    exact decide_eq_true (own _ (of_decide_eq_true listed))
  unfold ownItems
  dsimp only
  rw [events, alarms]
  congr 1
  · apply map_congr_left
    intro event listed
    have present := (mem_descending _ _ _).mp (mem_of_mem_take listed)
    have chosen := (mem_filter.mp present).2
    rw [Bool.and_eq_true, decide_eq_true_eq] at chosen
    unfold eventItem cameraName
    rw [cameraAt_agree agree event.cameraId (own _ chosen.1)]
  · apply map_congr_left
    intro alarm listed
    have present := (mem_descending _ _ _).mp (mem_of_mem_take listed)
    have chosen := (mem_filter.mp present).2
    rw [Bool.and_eq_true, Option.any_eq_true] at chosen
    obtain ⟨⟨id, camera, inList⟩, -⟩ := chosen
    unfold alarmItem cameraName
    rw [camera, Option.bind_some, Option.bind_some,
      cameraAt_agree agree id (own _ (of_decide_eq_true inList))]

end Agreement

section Timeline

def momentKey (item : TimelineItem) : ℤ := ((item.moment : ℕ) : ℤ)

/-- The events and the alarms of the cameras at one instant. -/
def ownAt (db : ReportTables) (cameraIds : List Text) (moment : ℤ) : ℕ :=
  db.cameraEvents.countP (fun event =>
      event.cameraId ∈ cameraIds && ((event.occurredAt : ℕ) : ℤ) = moment) +
    db.alarmInstances.countP fun alarm =>
      alarm.cameraId.any (fun id => id ∈ cameraIds) && ((alarm.lastOccurredAt : ℕ) : ℤ) = moment

theorem within_le {since until' : ℤ} {moment : Instant} (inside : within since until' moment = true) :
    since ≤ (moment : ℤ) ∧ (moment : ℤ) ≤ until' := by
  unfold within at inside
  rw [Bool.and_eq_true, decide_eq_true_eq, decide_eq_true_eq] at inside
  exact inside

theorem ownItems_bounded (db : ReportTables) (cameraIds : List Text) (since until' : ℤ)
    (limit : ℕ) : ∀ item ∈ ownItems db cameraIds since until' limit, momentKey item ≤ until' := by
  intro item listed
  rcases mem_append.mp listed with inEvents | inAlarms
  · obtain ⟨event, present, rfl⟩ := mem_map.mp inEvents
    have row := (mem_descending _ _ _).mp (mem_of_mem_take present)
    have chosen := (mem_filter.mp row).2
    rw [Bool.and_eq_true] at chosen
    exact (within_le chosen.2).2
  · obtain ⟨alarm, present, rfl⟩ := mem_map.mp inAlarms
    have row := (mem_descending _ _ _).mp (mem_of_mem_take present)
    have chosen := (mem_filter.mp row).2
    rw [Bool.and_eq_true] at chosen
    exact (within_le chosen.2).2

theorem auditItems_bounded (db : ReportTables) (since until' : ℤ) (limit : ℕ) :
    ∀ item ∈ auditItems db since until' limit, momentKey item ≤ until' := by
  intro item listed
  obtain ⟨entry, present, rfl⟩ := mem_map.mp listed
  have row := (mem_descending _ _ _).mp (mem_of_mem_take present)
  have chosen := (mem_filter.mp row).2
  rw [Bool.and_eq_true] at chosen
  exact (within_le chosen.1).2

theorem filter_take_count {Row : Type} (key : Row → ℤ) (choice : Row → Bool) (rows : List Row)
    (since until' : ℤ) (n : ℕ) (period : since ≤ until') : (((descending key (rows.filter fun row =>
        choice row && (decide (since ≤ key row) && decide (key row ≤ until')))).take n).filter
          fun row => key row = until').length =
      min n (rows.countP fun row => choice row && decide (key row = until')) := by
  have bounded : ∀ row ∈ rows.filter (fun row =>
      choice row && (decide (since ≤ key row) && decide (key row ≤ until'))), key row ≤ until' := by
    intro row listed
    have chosen := (mem_filter.mp listed).2
    rw [Bool.and_eq_true, Bool.and_eq_true] at chosen
    exact of_decide_eq_true chosen.2.2
  rw [filter_take_descending key until' _ n bounded, length_take, filter_filter,
    ← countP_eq_length_filter]
  congr 1
  apply countP_congr
  intro row _
  simp only [Bool.and_eq_true, decide_eq_true_eq]
  constructor
  · rintro ⟨here, chosen, -⟩
    exact ⟨chosen, here⟩
  · rintro ⟨chosen, here⟩
    exact ⟨here, chosen, by omega, by omega⟩

theorem ownItems_count (db : ReportTables) (cameraIds : List Text) (since until' : ℤ) (limit : ℕ)
    (period : since ≤ until') : limit ≤ ((ownItems db cameraIds since until' limit).filter
        fun item => momentKey item = until').length ↔
      limit ≤ ownAt db cameraIds until' := by
  have events := filter_take_count (fun event : CameraEvent => ((event.occurredAt : ℕ) : ℤ))
    (fun event => event.cameraId ∈ cameraIds) db.cameraEvents since until' limit period
  have alarms := filter_take_count (fun alarm : AlarmInstance => ((alarm.lastOccurredAt : ℕ) : ℤ))
    (fun alarm => alarm.cameraId.any fun id => id ∈ cameraIds) db.alarmInstances since until' limit
  unfold ownItems
  rw [filter_append, length_append, filter_map, filter_map, length_map, length_map]
  show limit ≤ (List.filter (fun event : CameraEvent => ((event.occurredAt : ℕ) : ℤ) = until')
    _).length + (List.filter
      (fun alarm : AlarmInstance => ((alarm.lastOccurredAt : ℕ) : ℤ) = until') _).length ↔ _
  unfold within ownAt
  omega

/-- A full instant at the end of the period leaves nothing else to see. -/
theorem descending_full (db : ReportTables) (cameraIds : List Text) (since until' : ℤ) (limit : ℕ)
    (full : limit ≤ ((ownItems db cameraIds since until' limit).filter fun item => momentKey item =
      until').length) :
    (descending momentKey (timelineItems db cameraIds since until' limit)).take limit =
      ((ownItems db cameraIds since until' limit).filter
        fun item => momentKey item = until').take limit := by
  have bounded : ∀ item ∈ timelineItems db cameraIds since until' limit,
      momentKey item ≤ until' := by
    intro item listed
    rcases mem_append.mp listed with own | audit
    · exact ownItems_bounded db cameraIds since until' limit item own
    · exact auditItems_bounded db since until' limit item audit
  rw [descending_top momentKey until' _ bounded, timelineItems_eq, filter_append,
    append_assoc, take_append_of_le_length full]

theorem timelineItems_empty (db : ReportTables) (cameraIds : List Text) (since until' : ℤ)
    (limit : ℕ) (empty : until' < max since 0) :
    timelineItems db cameraIds since until' limit = [] := by
  have none' : ∀ moment : Instant, within since until' moment = false := by
    intro moment
    apply Bool.eq_false_iff.mpr
    intro inside
    have bounds := within_le inside
    rcases lt_max_iff.mp empty with early | early <;> omega
  unfold timelineItems
  simp [none', descending]

theorem listedCameraIds_unprivileged (db : ReportTables) (user : AuthUser)
    (unprivileged : isPrivileged user = false) :
    listedCameraIds db.toEventTables user = getAccessibleCameraIds db.toDirectory user := by
  exact if_neg (by simp [unprivileged])

/-- The period ends before it starts, or its last instant is filled with own items. -/
def Settled (around : Surroundings) (user : AuthUser) (query : TimelineQuery)
    (db : ReportTables) : Prop :=
  ∀ since until', dateOr around query.fromDate (around.clock 0 - day) = .ok since →
    dateOr around query.toDate (around.clock 1) = .ok until' →
      until' < max since 0 ∨ timelineLimit query.limit ≤
        ownAt db
          (chosenCameraIds query.cameraId (getAccessibleCameraIds db.toDirectory user)) until'

theorem timeline_answer (db : ReportTables) (ids : List Text) (query : TimelineQuery)
    (since until' : ℤ) (first : dateOr around query.fromDate (around.clock 0 - day) = .ok since)
    (second : dateOr around query.toDate (around.clock 1) = .ok until') :
    getOperationsTimeline around db ids query =
      .ok ⟨around.clock 2, since, until', (descending momentKey
        (timelineItems db (chosenCameraIds query.cameraId ids) since until'
          (timelineLimit query.limit))).take (timelineLimit query.limit)⟩ := by
  unfold getOperationsTimeline
  rw [first, second]
  rfl

theorem operationsTimeline_agree {user : AuthUser} {db other : ReportTables} (query : TimelineQuery)
    (unprivileged : isPrivileged user = false) (agree : Agree user db other)
    (inside : ∀ id, truthy query.cameraId = some id → id ∈ getAccessibleCameraIds db.toDirectory user)
    (settled : Settled around user query db) :
    operationsTimeline around other user query = operationsTimeline around db user query := by
  unfold operationsTimeline
  rw [checkView_agree agree query.cameraId inside,
    listedCameraIds_unprivileged db user unprivileged,
    listedCameraIds_unprivileged other user unprivileged]
  cases first : dateOr around query.fromDate (around.clock 0 - day) with
  | error failure =>
    unfold getOperationsTimeline
    rw [first]
    rfl
  | ok since =>
    cases second : dateOr around query.toDate (around.clock 1) with
    | error failure =>
      unfold getOperationsTimeline
      rw [first, second]
      rfl
    | ok until' =>
      rw [timeline_answer around other _ query since until' first second,
        timeline_answer around db _ query since until' first second]
      rcases settled since until' first second with empty | full
      · rw [timelineItems_empty other _ since until' _ empty,
          timelineItems_empty db _ since until' _ empty]
      · have own := ownItems_agree agree query.cameraId inside since until'
        by_cases period : since ≤ until'
        · have filled := (ownItems_count db _ since until' _ period).mpr full
          have filled' := filled
          rw [← own] at filled'
          rw [descending_full other _ since until' _ filled', own,
            descending_full db _ since until' _ filled]
        · have empty : until' < max since 0 := lt_max_of_lt_left (not_le.mp period)
          rw [timelineItems_empty other _ since until' _ empty,
            timelineItems_empty db _ since until' _ empty]

end Timeline

section Differences

/-- The state with one camera replaced, or added. -/
def withCamera (db : ReportTables) (row : Camera) (given : row.id ≠ []) : ReportTables :=
  { db with
    cameras := db.cameras.filter (fun camera => camera.id ≠ row.id) ++ [row]
    cameraIds := by
      rw [map_append, nodup_append]
      refine ⟨db.cameraIds.sublist (filter_sublist.map _), nodup_singleton _, ?_⟩
      intro id listed other single same
      obtain ⟨camera, kept, rfl⟩ := mem_map.mp listed
      rw [map_singleton, mem_singleton] at single
      exact of_decide_eq_true (mem_filter.mp kept).2 (same.trans single)
    named := by
      intro camera listed
      rcases mem_append.mp listed with kept | added
      · exact db.named camera (mem_of_mem_filter kept)
      · rw [mem_singleton.mp added]
        exact given
    permitted := by
      intro perm listed id named
      obtain ⟨camera, present, same⟩ := db.permitted perm listed id named
      by_cases here : camera.id = row.id
      · refine ⟨row, by simp, ?_⟩
        rw [← here, same]
      · exact ⟨camera, by simp [present, here], same⟩
    eventCameras := by
      intro event listed
      obtain ⟨camera, present, same⟩ := db.eventCameras event listed
      by_cases here : camera.id = row.id
      · refine ⟨row, by simp, ?_⟩
        rw [← here, same]
      · exact ⟨camera, by simp [present, here], same⟩
    alarmCameras := by
      intro alarm listed id camera'
      obtain ⟨camera, present, same⟩ := db.alarmCameras alarm listed id camera'
      by_cases here : camera.id = row.id
      · refine ⟨row, by simp, ?_⟩
        rw [← here, same]
      · exact ⟨camera, by simp [present, here], same⟩ }

theorem undirected_of_hidden (db : ReportTables) (user : AuthUser)
    (unprivileged : isPrivileged user = false) (id : Text)
    (hidden : id ∉ getAccessibleCameraIds db.toDirectory user) :
    ¬HasDirect db.toDirectory user.id id := by
  intro direct
  apply hidden
  obtain ⟨perm, known, own, named⟩ := direct
  obtain ⟨camera, member, rfl⟩ := db.permitted perm known id named
  rw [mem_getAccessibleCameraIds db.toDirectory user camera member, if_neg (by simp [unprivileged])]
  exact Or.inl ⟨perm, known, own, named⟩

theorem withCamera_accessible (db : ReportTables) (row : Camera) (given : row.id ≠ [])
    (user : AuthUser) (unprivileged : isPrivileged user = false) (ungrouped : row.groupId = none)
    (hidden : row.id ∉ getAccessibleCameraIds db.toDirectory user) (id : Text) :
    id ∈ getAccessibleCameraIds (withCamera db row given).toDirectory user ↔
      id ∈ getAccessibleCameraIds db.toDirectory user := by
  have undirected := undirected_of_hidden db user unprivileged row.id hidden
  have rows : ∀ camera, camera ∈ (withCamera db row given).cameras ↔
      camera ∈ db.cameras ∧ camera.id ≠ row.id ∨ camera = row := by
    intro camera
    simp [withCamera]
  by_cases here : id = row.id
  · rw [here]
    apply iff_of_false _ hidden
    have member : row ∈ (withCamera db row given).cameras := (rows row).mpr (Or.inr rfl)
    rw [mem_getAccessibleCameraIds _ user row member, if_neg (by simp [unprivileged])]
    rintro (direct | ⟨⟨groupId, group, -⟩, -⟩)
    · exact undirected direct
    · have none' := truthy_some group
      rw [ungrouped] at none'
      cases none'
  · by_cases known : ∃ camera ∈ db.cameras, camera.id = id
    · obtain ⟨camera, member, rfl⟩ := known
      have member' : camera ∈ (withCamera db row given).cameras :=
        (rows camera).mpr (Or.inl ⟨member, here⟩)
      rw [mem_getAccessibleCameraIds _ user camera member',
        mem_getAccessibleCameraIds db.toDirectory user camera member]
      rfl
    · push Not at known
      apply iff_of_false
      · intro listed
        obtain ⟨camera, present, same⟩ := exists_of_accessible _ user id listed
        rcases (rows camera).mp present with ⟨old, -⟩ | rfl
        · exact known camera old same
        · exact here same.symm
      · intro listed
        obtain ⟨camera, present, same⟩ := exists_of_accessible _ user id listed
        exact known camera present same

theorem withCamera_agree (db : ReportTables) (row : Camera) (given : row.id ≠ [])
    (user : AuthUser) (unprivileged : isPrivileged user = false) (ungrouped : row.groupId = none)
    (hidden : row.id ∉ getAccessibleCameraIds db.toDirectory user) :
    Agree user db (withCamera db row given) := by
  refine ⟨rfl, ?_, ?_, rfl, rfl, rfl, rfl⟩
  · exact withCamera_accessible db row given user unprivileged ungrouped hidden
  · show List.filter _ (db.cameras.filter (fun camera => camera.id ≠ row.id) ++ [row]) = _
    rw [filter_append, filter_filter]
    have last : [row].filter (fun camera =>
        decide (camera.id ∈ getAccessibleCameraIds db.toDirectory user)) = [] := by
      simp [hidden]
    rw [last, append_nil]
    apply filter_congr
    intro camera _
    by_cases own : camera.id ∈ getAccessibleCameraIds db.toDirectory user
    · have apart : camera.id ≠ row.id := by
        intro same
        rw [same] at own
        exact hidden own
      simp [own, apart]
    · simp [own]

/-- A private camera of the user, or of nobody, that is in no group. -/
def privateCamera (id : Text) (ownerUserId : Option Text) : Camera :=
  ⟨id, [], .online, none, false, none, true, ownerUserId, none, none, 0⟩

theorem checkView_differs (db : ReportTables) (user : AuthUser)
    (unprivileged : isPrivileged user = false) (cameraId : Option Text) (id : Text)
    (asked : truthy cameraId = some id) (hidden : id ∉ getAccessibleCameraIds db.toDirectory user) :
    ∃ first second, Agree user db first ∧ Agree user db second ∧
      isForbidden (checkView first.toEventTables user cameraId) = true ∧
        isForbidden (checkView second.toEventTables user cameraId) = false := by
  have given : id ≠ [] := of_decide_eq_true (Option.filter_eq_some_iff.mp asked).2
  have undirected := undirected_of_hidden db user unprivileged id hidden
  have view : ∀ owner, isForbidden (checkView (withCamera db (privateCamera id owner)
      given).toEventTables user cameraId) = false ↔ owner = some user.id := by
    intro owner
    have member : privateCamera id owner ∈
        (withCamera db (privateCamera id owner) given).cameras := by simp [withCamera]
    have gate := canViewCamera_iff (withCamera db (privateCamera id owner) given).toDirectory user
      (privateCamera id owner) member
    rw [truthy_some asked]
    refine (checkView_iff _ user id given).trans (gate.trans ?_)
    show (owner = some user.id ∨ HasDirect db.toDirectory user.id id) ↔ owner = some user.id
    rw [or_iff_left undirected]
  refine ⟨withCamera db (privateCamera id none) given,
    withCamera db (privateCamera id (some user.id)) given,
    withCamera_agree db _ given user unprivileged rfl hidden,
    withCamera_agree db _ given user unprivileged rfl hidden, ?_, ?_⟩
  · cases answer : isForbidden (checkView (withCamera db (privateCamera id none)
        given).toEventTables user cameraId) with
    | true => rfl
    | false => cases (view none).mp answer
  · exact (view (some user.id)).mpr rfl

theorem inside_of_confined {Answer : Type} (db : ReportTables) (user : AuthUser)
    (unprivileged : isPrivileged user = false) (cameraId : Option Text)
    (answer : ReportTables → Except Failure Answer)
    (checked : ∀ db, isForbidden (answer db) = isForbidden (checkView db.toEventTables user cameraId))
    (confined : Confined user answer db) (id : Text) (asked : truthy cameraId = some id) :
    id ∈ getAccessibleCameraIds db.toDirectory user := by
  by_contra hidden
  obtain ⟨first, second, agree, agree', refused, allowed⟩ :=
    checkView_differs db user unprivileged cameraId id asked hidden
  rw [← checked, confined first agree, ← confined second agree', checked, allowed] at refused
  cases refused

variable (around : Surroundings)

theorem reliabilityTrend_forbidden (user : AuthUser) (days : ℤ) (cameraId : Option Text)
    (db : ReportTables) : isForbidden (reliabilityTrend around db user days cameraId) =
      isForbidden (checkView db.toEventTables user cameraId) := by
  apply isForbidden_bind
  intro _
  rfl

theorem dateOr_allows (text : Option Text) (absent : ℤ) :
    isForbidden (dateOr around text absent) = false := by
  unfold dateOr
  split
  · rfl
  · split <;> rfl

theorem operationsTimeline_forbidden (user : AuthUser) (query : TimelineQuery) (db : ReportTables) :
    isForbidden (operationsTimeline around db user query) =
      isForbidden (checkView db.toEventTables user query.cameraId) := by
  apply isForbidden_bind
  intro _
  unfold getOperationsTimeline
  rw [isForbidden_bind, dateOr_allows]
  intro since
  rw [isForbidden_bind, dateOr_allows]
  intro until'
  rfl

theorem exists_fresh (ids : List Text) : ∃ id, id ∉ ids ∧ id ≠ [] := by
  refine ⟨'x' :: ids.flatten, ?_, cons_ne_nil _ _⟩
  intro listed
  have shorter := (sublist_flatten_of_mem listed).length_le
  rw [length_cons] at shorter
  omega

/-- The state after one more event. -/
def withEvent (db : ReportTables) (event : CameraEvent)
    (known : ∃ camera ∈ db.cameras, camera.id = event.cameraId) : ReportTables :=
  { db with
    cameraEvents := event :: db.cameraEvents
    eventCameras := forall_mem_cons.mpr ⟨known, db.eventCameras⟩ }

theorem withEvent_agree (db mid : ReportTables) (event : CameraEvent)
    (known : ∃ camera ∈ mid.cameras, camera.id = event.cameraId) (user : AuthUser)
    (agree : Agree user db mid)
    (hidden : event.cameraId ∉ getAccessibleCameraIds db.toDirectory user) :
    Agree user db (withEvent mid event known) := by
  refine ⟨agree.permissions, agree.accessible, agree.cameras, ?_, agree.recordings, agree.alarms,
    ?_⟩
  · show List.filter _ (event :: mid.cameraEvents) = _
    rw [filter_cons_of_neg (by simp [hidden])]
    exact agree.events
  · rw [← agree.audit]
    apply filter_congr
    intro entry _
    unfold isAbout withEvent
    simp [hidden]

theorem overview_leaks (db : ReportTables) (user : AuthUser)
    (unprivileged : isPrivileged user = false)
    (empty : getAccessibleCameraIds db.toDirectory user = []) :
    ¬Confined user (fun db => overview around db user) db := by
  intro confined
  obtain ⟨id, -, given⟩ := exists_fresh []
  have hidden : id ∉ getAccessibleCameraIds db.toDirectory user := by
    rw [empty]
    exact not_mem_nil
  have agree := withCamera_agree db (privateCamera id none) given user unprivileged rfl hidden
  have known : ∃ camera ∈ (withCamera db (privateCamera id none) given).cameras,
      camera.id = id := ⟨privateCamera id none, by simp [withCamera], rfl⟩
  have agree' := withEvent_agree db _
    ⟨[], id, [], [], [], none, (around.clock 1 - day).toNat, 0⟩ known user agree hidden
  have counted : ∀ other, Agree user db other → (overview around other user).events24h =
      other.cameraEvents.countP fun event =>
        decide (around.clock 1 - day ≤ ((event.occurredAt : ℕ) : ℤ)) := by
    intro other agreeing
    have none' : camerasOf other (some (getAccessibleCameraIds other.toDirectory user)) = [] := by
      rw [camerasOf_agree agreeing, empty]
      simp [camerasOf]
    unfold overview getOverview
    rw [idsOf_unprivileged other unprivileged, none']
    simp [newestCamerasFirst, descending, inCamerasOrAll]
  have same : ∀ other, Agree user db other →
      overview around other user = overview around db user := confined
  have first := counted _ agree
  have second := counted _ agree'
  rw [same _ agree] at first
  rw [same _ agree', first] at second
  unfold withEvent at second
  rw [countP_cons_of_pos (by simp)] at second
  omega

/-- The state with another audit trail. -/
def withAudit (db : ReportTables) (auditLogs : List AuditLog) : ReportTables :=
  { db with auditLogs }

theorem withAudit_agree (db : ReportTables) (auditLogs : List AuditLog) (user : AuthUser)
    (same : auditLogs.filter (isAbout db (getAccessibleCameraIds db.toDirectory user)) =
      db.auditLogs.filter (isAbout db (getAccessibleCameraIds db.toDirectory user))) :
    Agree user db (withAudit db auditLogs) :=
  ⟨rfl, fun _ => Iff.rfl, rfl, rfl, rfl, rfl, same⟩

theorem checkView_inside (db : ReportTables) (user : AuthUser) (cameraId : Option Text)
    (inside : ∀ id, truthy cameraId = some id → id ∈ getAccessibleCameraIds db.toDirectory user) :
    checkView db.toEventTables user cameraId = .ok () := by
  unfold checkView
  cases given : truthy cameraId with
  | none => rfl
  | some id =>
    have known := inside id given
    obtain ⟨camera, member, rfl⟩ := exists_of_accessible db.toDirectory user id known
    exact if_pos (canViewCamera_of_accessible db.toDirectory user camera member known)

theorem auditItems_cons (db : ReportTables) (entry : AuditLog) (auditLogs : List AuditLog)
    (since until' : ℤ) (limit : ℕ) (operation : isOperation entry = true)
    (inside : within since until' entry.createdAt = true)
    (last : ((entry.createdAt : ℕ) : ℤ) = until') :
    auditItems (withAudit db (entry :: auditLogs)) since until' (limit + 1) =
      auditItem entry :: auditItems (withAudit db auditLogs) since until' limit := by
  unfold auditItems withAudit
  rw [filter_cons_of_pos (by simp [operation, inside]), descending, insertionSort_cons,
    KeyedList.orderedInsert_least, take_succ_cons, map_cons]
  · rfl
  · intro other listed
    rw [mem_insertionSort, mem_filter, Bool.and_eq_true] at listed
    have bounds := within_le listed.2.1
    omega

theorem mem_take_middle {Row : Type} (before : List Row) (row : Row) (after : List Row) (n : ℕ)
    (room : before.length < n) : row ∈ (before ++ row :: after).take n := by
  obtain ⟨m, same⟩ : ∃ m, n - before.length = m + 1 := ⟨n - before.length - 1, by omega⟩
  rw [take_append, same, take_succ_cons]
  exact mem_append_right _ mem_cons_self

theorem audit_shown (db : ReportTables) (cameraIds : List Text) (entry : AuditLog)
    (auditLogs : List AuditLog) (since until' : ℤ) (limit : ℕ)
    (operation : isOperation entry = true) (inside : within since until' entry.createdAt = true)
    (last : ((entry.createdAt : ℕ) : ℤ) = until')
    (room : ((ownItems db cameraIds since until' (limit + 1)).filter fun item => momentKey item =
      until').length < limit + 1) :
    auditItem entry ∈ (descending momentKey (timelineItems (withAudit db (entry :: auditLogs))
      cameraIds since until' (limit + 1))).take (limit + 1) := by
  have bounded : ∀ item ∈ timelineItems (withAudit db (entry :: auditLogs)) cameraIds since until'
      (limit + 1), momentKey item ≤ until' := by
    intro item listed
    rcases mem_append.mp listed with own | audit
    · exact ownItems_bounded _ cameraIds since until' _ item own
    · exact auditItems_bounded _ since until' _ item audit
  have here : momentKey (auditItem entry) = until' := last
  rw [descending_top momentKey until' _ bounded, timelineItems_eq,
    auditItems_cons db entry auditLogs since until' limit operation inside last,
    filter_append, filter_cons_of_pos (by simp [here]), append_assoc,
    cons_append]
  exact mem_take_middle _ _ _ _ room

/-- An action that concerns none of the cameras of the user is shown to it at the end of the
period, unless own items fill this instant. -/
theorem timeline_settled (db : ReportTables) (user : AuthUser) (query : TimelineQuery)
    (unprivileged : isPrivileged user = false)
    (inside : ∀ id, truthy query.cameraId = some id → id ∈ getAccessibleCameraIds db.toDirectory user)
    (confined : Confined user (fun db => operationsTimeline around db user query) db) :
    Settled around user query db := by
  intro since until' first second
  by_contra open'
  push Not at open'
  obtain ⟨period, room⟩ := open'
  have start : since ≤ until' := le_trans (le_max_left _ _) period
  have moment : ((until'.toNat : ℕ) : ℤ) = until' :=
    Int.toNat_of_nonneg (le_trans (le_max_right _ _) period)
  obtain ⟨limit, size⟩ : ∃ n, timelineLimit query.limit = n + 1 := by
    refine ⟨timelineLimit query.limit - 1, ?_⟩
    omega
  generalize ids : chosenCameraIds query.cameraId (getAccessibleCameraIds db.toDirectory user) =
    cameraIds at room
  have answers : ∀ auditLogs, operationsTimeline around (withAudit db auditLogs) user query =
      .ok ⟨around.clock 2, since, until', (descending momentKey
        (timelineItems (withAudit db auditLogs) cameraIds since until' (limit + 1))).take
          (limit + 1)⟩ := by
    intro auditLogs
    unfold operationsTimeline
    rw [checkView_inside (withAudit db auditLogs) user query.cameraId inside,
      listedCameraIds_unprivileged (withAudit db auditLogs) user unprivileged]
    have answer := timeline_answer around (withAudit db auditLogs)
      (getAccessibleCameraIds db.toDirectory user) query since until' first second
    rw [size, ids] at answer
    exact answer
  have same : ∀ other, Agree user db other →
      operationsTimeline around other user query = operationsTimeline around db user query :=
    confined
  -- The same trail, with and without the action of an actor that it does not name.
  generalize trail : db.auditLogs.filter
    (isAbout db (getAccessibleCameraIds db.toDirectory user)) = own
  have own_about : own.filter (isAbout db (getAccessibleCameraIds db.toDirectory user)) = own := by
    rw [← trail, filter_filter]
    simp
  obtain ⟨actor, unnamed, -⟩ := exists_fresh (own.filterMap AuditLog.userId)
  have agree := withAudit_agree db own user (own_about.trans trail.symm)
  have agree' := withAudit_agree db
    (⟨some actor, "alarm.".toList, [], none, until'.toNat⟩ :: own) user (by
      exact own_about.trans trail.symm)
  have equal := (same _ agree').trans (same _ agree).symm
  rw [answers, answers] at equal
  have items := congrArg (Except.map Timeline.items) equal
  have alarm_operation : isOperation
      ⟨some actor, "alarm.".toList, [], none, until'.toNat⟩ = true := by
    rfl
  have shown := audit_shown db cameraIds
    ⟨some actor, "alarm.".toList, [], none, until'.toNat⟩ own since until' limit
    alarm_operation (by simp [within, moment, start]) moment (by
      have count := ownItems_count db cameraIds since until' (limit + 1) start
      omega)
  have listed : auditItem ⟨some actor, "alarm.".toList, [], none, until'.toNat⟩ ∈
      (descending momentKey (timelineItems (withAudit db own) cameraIds since until'
        (limit + 1))).take (limit + 1) := by
    have rows : List.take _ _ = List.take _ _ := Except.ok.inj items
    rw [← rows]
    exact shown
  have present := (mem_descending _ _ _).mp (mem_of_mem_take listed)
  rcases mem_append.mp present with inOwn | inAudit
  · rcases mem_append.mp inOwn with inEvents | inAlarms
    · obtain ⟨event, -, wrong⟩ := mem_map.mp inEvents
      cases congrArg TimelineItem.kind wrong
    · obtain ⟨alarm, -, wrong⟩ := mem_map.mp inAlarms
      cases congrArg TimelineItem.kind wrong
  · obtain ⟨entry, taken, wrong⟩ := mem_map.mp inAudit
    have row := (mem_descending _ _ _).mp (mem_of_mem_take taken)
    have known := mem_of_mem_filter row
    apply unnamed
    exact mem_filterMap.mpr ⟨entry, known, congrArg TimelineItem.actor wrong⟩

end Differences

/-- For a user that is no administrator the reports are functions of its cameras exactly when it has
one, asks only for its own, and sees a timeline whose last instant its own items fill. -/
theorem reports_confined_iff (around : Surroundings) (user : AuthUser) (db : ReportTables)
    (days trendDays : ℤ) (trendCamera : Option Text) (query : TimelineQuery)
    (unprivileged : isPrivileged user = false) :
    (Confined user (fun db => overview around db user) db ∧
        Confined user (fun db => operationsTimeline around db user query) db ∧
        Confined user (fun db => healthScores around db user) db ∧
        Confined user (fun db => reliability around db user days) db ∧
        Confined user (fun db => reliabilityTrend around db user trendDays trendCamera) db) ↔
      getAccessibleCameraIds db.toDirectory user ≠ [] ∧
        (∀ id, truthy query.cameraId = some id → id ∈ getAccessibleCameraIds db.toDirectory user) ∧
        Settled around user query db ∧
        ∀ id, truthy trendCamera = some id → id ∈ getAccessibleCameraIds db.toDirectory user := by
  constructor
  · rintro ⟨overviews, timelines, -, -, trends⟩
    have inside : ∀ id, truthy query.cameraId = some id →
        id ∈ getAccessibleCameraIds db.toDirectory user :=
      inside_of_confined db user unprivileged query.cameraId _
        (operationsTimeline_forbidden around user query) timelines
    refine ⟨?_, inside, ?_, ?_⟩
    · intro empty
      exact overview_leaks around db user unprivileged empty overviews
    · exact timeline_settled around db user query unprivileged inside timelines
    · exact inside_of_confined db user unprivileged trendCamera _
        (reliabilityTrend_forbidden around user trendDays trendCamera) trends
  · rintro ⟨some', inside, settled, trend⟩
    refine ⟨?_, ?_, ?_, ?_, ?_⟩
    · intro other agree
      apply overview_agree around unprivileged agree
      intro none'
      obtain ⟨id, listed⟩ := exists_mem_of_ne_nil _ some'
      obtain ⟨camera, member, rfl⟩ := exists_of_accessible db.toDirectory user id listed
      have chosen : camera ∈ camerasOf db
          (some (getAccessibleCameraIds db.toDirectory user)) :=
        mem_filter.mpr ⟨member, decide_eq_true listed⟩
      rw [none'] at chosen
      exact absurd chosen not_mem_nil
    · intro other agree
      exact operationsTimeline_agree around query unprivileged agree inside settled
    · intro other agree
      exact healthScores_confined around unprivileged agree
    · intro other agree
      exact reliability_confined around days unprivileged agree
    · intro other agree
      exact reliabilityTrend_agree around trendDays trendCamera unprivileged agree trend

/-- One camera that nobody was given, and nothing recorded of it. -/
def quietYard : ReportTables :=
  { lonelyYard with alarmInstances := [], recordings := [], auditLogs := []
                    alarmCameras := fun _ listed => absurd listed not_mem_nil }

/-- The same camera given to a user. -/
def givenYard : ReportTables :=
  { quietYard with
    cameraPermissions := [⟨['u'], some ['c'], none, .view⟩]
    permitted := forall_mem_singleton.mpr fun _ same =>
      ⟨yard, mem_singleton_self _, Option.some.inj same⟩ }

def august : Surroundings :=
  { healthCheckOfflineMinutes := none
    clock := fun _ => 1785628800000
    newDate := fun text =>
      if text = "2026-08-02".toList then some 1785628800000
      else if text = "2026-08-01".toList then some 1785542400000
      else none
    dateOfJson := fun _ => none }

/-- The period from the second of August to the first. -/
def backwards : TimelineQuery :=
  ⟨none, some "2026-08-02".toList, some "2026-08-01".toList, none⟩

theorem givenYard_confined : Confined stranger (fun db => overview august db stranger) givenYard ∧
      Confined stranger (fun db => operationsTimeline august db stranger backwards) givenYard ∧
      Confined stranger (fun db => healthScores august db stranger) givenYard ∧
      Confined stranger (fun db => reliability august db stranger 7) givenYard ∧
      Confined stranger (fun db => reliabilityTrend august db stranger 30 none) givenYard := by
  apply (reports_confined_iff august stranger givenYard 7 30 none backwards rfl).mpr
  refine ⟨by decide +kernel, nofun, ?_, nofun⟩
  intro since until' first second
  cases first
  cases second
  norm_num

def yardEvent : CameraEvent := ⟨['e'], ['c'], [], [], [], none, 1785628800000, 0⟩

/-- The quiet yard after one event. -/
def busyYard : ReportTables :=
  withEvent quietYard yardEvent ⟨yard, mem_singleton_self _, rfl⟩

/-- A user without a camera is told of an event of a camera that it may not access. -/
theorem busyYard_counted :
    Agree stranger quietYard busyYard ∧ (overview august quietYard stranger).events24h = 0 ∧
      (overview august busyYard stranger).events24h = 1 := by
  refine ⟨?_, by decide +kernel, by decide +kernel⟩
  apply withEvent_agree quietYard quietYard
  · exact ⟨rfl, fun _ => Iff.rfl, rfl, rfl, rfl, rfl, rfl⟩
  · decide +kernel

end DracVms.Reports
