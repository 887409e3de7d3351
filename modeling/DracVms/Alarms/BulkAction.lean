import DracVms.AccessControl.RolePermissions
import DracVms.Alarms.AlarmsService

namespace DracVms.Alarms

open List

open Json (Text)
open Database AccessControl RolePermissions
open KeyedList (lookup updateAt)

inductive BulkAction where
  | ack
  | resolve
  | snooze
  | unsnooze
  deriving DecidableEq, Repr

/-- The note and the minutes that come with a request. -/
structure Remarks where
  note : Option Text
  minutes : Option ℚ

def BulkAction.action (remarks : Remarks) : BulkAction → Action
  | .ack => .acknowledge remarks.note
  | .resolve => .resolve remarks.note
  | .snooze => .snooze (remarks.minutes.getD 15) remarks.note
  | .unsnooze => .unsnooze remarks.note

/-- The user of a request, with the name that goes into the history. -/
structure Requester extends AuthUser where
  name : Text

def Requester.actor (user : Requester) : Actor := ⟨user.id, user.name⟩

/-- `[...new Set(eventIds)].slice(0, 200)` -/
def uniqueIds (eventIds : List Text) : List Text := (unique eventIds).take 200

theorem unique_concat (ids : List Text) (id : Text) :
    unique (ids ++ [id]) = if id ∈ ids then unique ids else unique ids ++ [id] := by
  unfold unique
  rw [reverse_append, reverse_singleton, singleton_append]
  by_cases repeated : id ∈ ids
  · rw [if_pos repeated, dedup_cons_of_mem (mem_reverse.mpr repeated)]
  · have fresh : id ∉ ids.reverse := fun listed => repeated (mem_reverse.mp listed)
    rw [if_neg repeated, dedup_cons_of_notMem fresh, reverse_cons]

theorem unique_length (ids : List Text) : (unique ids).length ≤ ids.length := by
  have shorter := (dedup_sublist ids.reverse).length_le
  simpa [unique] using shorter

/-- The first of a list are among its first without repetitions. -/
theorem take_unique (ids : List Text) (limit : ℕ) :
    ∀ id ∈ ids.take limit, id ∈ (unique ids).take limit := by
  induction ids using List.reverseRecOn with
  | nil => simp
  | append_singleton ids last ih =>
    intro id listed
    by_cases within : limit ≤ ids.length
    · rw [take_append_of_le_length within] at listed
      have earlier := ih id listed
      rw [unique_concat]
      split
      · exact earlier
      · have extended : unique ids <+: unique ids ++ [last] := prefix_append _ _
        exact (extended.take limit).subset earlier
    · have short := unique_length (ids ++ [last])
      rw [length_append, length_singleton] at short
      rw [take_of_length_le (by omega), mem_unique]
      exact mem_of_mem_take listed

theorem uniqueIds_nodup (eventIds : List Text) : (uniqueIds eventIds).Nodup := by
  have distinct : (unique eventIds).Nodup := nodup_reverse.mpr (nodup_dedup _)
  exact (take_sublist _ _).nodup distinct

section Routes

variable (db : Directory) (stored : StoredMatrices) (user : Requester) (remarks : Remarks)

def assertRole (required : UserRole) : Except Failure Unit :=
  if rolesAllow user.toAuthUser required then .ok () else .error (.forbidden rolesRefusal)

def assertPermission (required : PermissionKey) : Except Failure Unit :=
  if permissionsAllow stored user.toAuthUser required then .ok ()
  else .error (.forbidden (permissionRefusal required))

/-- The view of the camera, where the alarm has one. -/
def checkView (alarm : AlarmInstance) : Except Failure Unit :=
  match truthy alarm.cameraId with
  | none => .ok ()
  | some cameraId =>
    (EventLists.assertCanViewCamera db user.toAuthUser cameraId).mapError Failure.access

def checkAlarm (rows : List AlarmInstance) (id : Text) : Except Failure Unit := do
  let alarm ← ensureExists rows id
  checkView db user alarm

/-- `acknowledgeAlarm`, `resolveAlarm`, `snoozeAlarm` and `unsnoozeAlarm`, with their guards. -/
def singleRoute (now : Instant) (action : BulkAction) (rows : List AlarmInstance) (id : Text) :
    Except Failure (List AlarmInstance) := do
  assertRole user .operator
  assertPermission stored user .alarmAck
  checkAlarm db user rows id
  perform now user.actor (action.action remarks) rows id

def Failure.message : Failure → Text
  | .access (.forbidden message) => message
  | .access .invalidDate => []
  | .forbidden message => message
  | .notFound message => message

structure BulkResult where
  action : BulkAction
  totalRequested : ℕ
  ok : ℕ
  skipped : ℕ
  /-- Each alarm, with the reason where it was skipped. -/
  results : List (Text × Option Text)

/-- One alarm of the loop. What fails is skipped. -/
def bulkStep (clock : ℕ → Instant) (action : BulkAction)
    (done : List AlarmInstance × List (Text × Option Text)) (id : Text) :
    List AlarmInstance × List (Text × Option Text) :=
  match perform (clock done.2.length) user.actor (action.action remarks) done.1 id with
  | .ok rows => (rows, done.2 ++ [(id, none)])
  | .error failure => (done.1, done.2 ++ [(id, some failure.message)])

def bulkAction (clock : ℕ → Instant) (action : BulkAction) (eventIds : List Text)
    (rows : List AlarmInstance) : BulkResult × List AlarmInstance :=
  let (after, results) := (uniqueIds eventIds).foldl (bulkStep user remarks clock action) (rows, [])
  (⟨action, (uniqueIds eventIds).length, (results.filter fun result => result.2.isNone).length,
    (results.filter fun result => result.2.isSome).length, results⟩, after)

/-- The route of many alarms: it checks the first of the list before any repetition is taken out. -/
def bulkAlarmAction (clock : ℕ → Instant) (action : BulkAction) (eventIds : List Text)
    (rows : List AlarmInstance) : Except Failure (BulkResult × List AlarmInstance) := do
  assertRole user .operator
  forM (eventIds.take 200) (checkAlarm db user rows)
  return bulkAction user remarks clock action eventIds rows

/-- The alarms after the request. -/
def rowsAfter (clock : ℕ → Instant) (action : BulkAction) (eventIds : List Text)
    (rows : List AlarmInstance) : List AlarmInstance :=
  match bulkAlarmAction db user remarks clock action eventIds rows with
  | .ok (_, after) => after
  | .error _ => rows

def isOk {α : Type} : Except Failure α → Bool
  | .ok _ => true
  | .error _ => false

def Changed (rows after : List AlarmInstance) (id : Text) : Prop :=
  lookup AlarmInstance.id rows id ≠ lookup AlarmInstance.id after id

/-- A request for many alarms is requests for the first of them, each once. -/
structure IsSingleActions (clock : ℕ → Instant) (action : BulkAction) (eventIds : List Text)
    (rows : List AlarmInstance) : Prop where
  allowed : ∀ id, Changed rows (rowsAfter db user remarks clock action eventIds rows) id →
    ∀ now, isOk (singleRoute db stored user remarks now action rows id) = true
  listed : ∀ id, Changed rows (rowsAfter db user remarks clock action eventIds rows) id →
    id ∈ uniqueIds eventIds
  complete : isOk (bulkAlarmAction db user remarks clock action eventIds rows) = true →
    ∀ id ∈ uniqueIds eventIds, (lookup AlarmInstance.id rows id).isSome →
      Changed rows (rowsAfter db user remarks clock action eventIds rows) id

/-- The alarm exists, and the user sees the camera that it has. -/
def Visible (rows : List AlarmInstance) (id : Text) : Prop :=
  ∃ alarm, lookup AlarmInstance.id rows id = some alarm ∧
    ∀ cameraId, truthy alarm.cameraId = some cameraId →
      canViewCamera db user.toAuthUser cameraId = true

/-- Where the two routes let the user do the same. The first of the list are checked with its
repetitions, those that are acted on are the first without. -/
def ChecksCover (eventIds : List Text) (rows : List AlarmInstance) : Prop :=
  rolesAllow user.toAuthUser .operator = true →
    (∀ id ∈ eventIds.take 200, Visible db user rows id) →
      (eventIds ≠ [] → permissionsAllow stored user.toAuthUser .alarmAck = true) ∧
        ∀ id ∈ uniqueIds eventIds, id ∉ eventIds.take 200 →
          (lookup AlarmInstance.id rows id).isSome → Visible db user rows id

theorem isOk_then {β : Type} (first : Except Failure Unit) (next : Unit → Except Failure β) :
    isOk (first >>= next) = true ↔ isOk first = true ∧ isOk (next ()) = true := by
  cases first with
  | error failure => exact iff_of_false Bool.false_ne_true (fun both => Bool.false_ne_true both.1)
  | ok value => exact ⟨fun passed => ⟨rfl, passed⟩, fun both => both.2⟩

theorem ok_unit (checked : Except Failure Unit) : checked = .ok () ↔ isOk checked = true := by
  cases checked with
  | error failure => exact iff_of_false (fun same => nomatch same) Bool.false_ne_true
  | ok value => exact iff_of_true rfl rfl

theorem forM_ok (check : Text → Except Failure Unit) (ids : List Text) :
    isOk (forM ids check) = true ↔ ∀ id ∈ ids, isOk (check id) = true := by
  induction ids with
  | nil => exact iff_of_true rfl (fun _ none => absurd none not_mem_nil)
  | cons id rest ih => rw [forM_cons, isOk_then, ih, forall_mem_cons]

theorem checkView_ok (alarm : AlarmInstance) :
    isOk (checkView db user alarm) = true ↔ ∀ cameraId, truthy alarm.cameraId = some cameraId →
      canViewCamera db user.toAuthUser cameraId = true := by
  unfold checkView EventLists.assertCanViewCamera
  cases truthy alarm.cameraId with
  | none => exact iff_of_true rfl (fun cameraId named => nomatch named)
  | some cameraId =>
    simp only [Option.some.injEq, forall_eq']
    split
    · rename_i shown
      exact iff_of_true rfl shown
    · rename_i hidden
      exact iff_of_false Bool.false_ne_true hidden

theorem checkAlarm_ok (rows : List AlarmInstance) (id : Text) :
    isOk (checkAlarm db user rows id) = true ↔ Visible db user rows id := by
  unfold checkAlarm ensureExists Visible
  cases lookup AlarmInstance.id rows id with
  | none =>
    refine iff_of_false Bool.false_ne_true ?_
    rintro ⟨alarm, ⟨⟩, -⟩
  | some alarm =>
    simp only [Option.some.injEq, exists_eq_left']
    exact checkView_ok db user alarm

theorem assertRole_ok (required : UserRole) :
    isOk (assertRole user required) = true ↔ rolesAllow user.toAuthUser required = true := by
  unfold assertRole
  split
  · rename_i allowed
    exact iff_of_true rfl allowed
  · rename_i refused
    exact iff_of_false Bool.false_ne_true refused

theorem assertPermission_ok (required : PermissionKey) :
    isOk (assertPermission stored user required) = true ↔
      permissionsAllow stored user.toAuthUser required = true := by
  unfold assertPermission
  split
  · rename_i allowed
    exact iff_of_true rfl allowed
  · rename_i refused
    exact iff_of_false Bool.false_ne_true refused

theorem singleRoute_ok (now : Instant) (action : BulkAction) (rows : List AlarmInstance) (id : Text) :
    isOk (singleRoute db stored user remarks now action rows id) = true ↔
      rolesAllow user.toAuthUser .operator = true ∧
        permissionsAllow stored user.toAuthUser .alarmAck = true ∧ Visible db user rows id := by
  unfold singleRoute
  rw [isOk_then, isOk_then, isOk_then, assertRole_ok, assertPermission_ok, checkAlarm_ok]
  constructor
  · rintro ⟨role, permission, visible, -⟩
    exact ⟨role, permission, visible⟩
  · rintro ⟨role, permission, visible⟩
    obtain ⟨alarm, found, seen⟩ := visible
    refine ⟨role, permission, ⟨alarm, found, seen⟩, ?_⟩
    rw [perform_found now _ _ found]
    rfl

theorem bulkAlarmAction_ok (clock : ℕ → Instant) (action : BulkAction) (eventIds : List Text)
    (rows : List AlarmInstance) :
    isOk (bulkAlarmAction db user remarks clock action eventIds rows) = true ↔
      rolesAllow user.toAuthUser .operator = true ∧
        ∀ id ∈ eventIds.take 200, Visible db user rows id := by
  unfold bulkAlarmAction
  rw [isOk_then, isOk_then, assertRole_ok, forM_ok]
  simp only [checkAlarm_ok]
  exact and_congr_right fun _ => and_iff_left rfl

/-! The loop. -/

theorem update_changes (now : Instant) (actor : Actor) (action : BulkAction)
    (alarm : AlarmInstance) : (action.action remarks).update now actor alarm alarm ≠ alarm := by
  intro same
  have adds : ∃ entry, (action.action remarks).entry now actor = some entry := by
    cases action <;> exact ⟨_, rfl⟩
  obtain ⟨entry, adds⟩ := adds
  have longer := update_history now actor _ alarm alarm entry adds
  rw [same] at longer
  exact absurd longer (by simp)

section

variable (clock : ℕ → Instant) (action : BulkAction)

theorem bulkStep_lookup (done : List AlarmInstance × List (Text × Option Text)) (id other : Text) :
    lookup AlarmInstance.id (bulkStep user remarks clock action done id).1 other =
      if other = id then (lookup AlarmInstance.id done.1 id).map fun alarm =>
        (action.action remarks).update (clock done.2.length) user.actor alarm alarm
      else lookup AlarmInstance.id done.1 other := by
  unfold bulkStep
  cases found : lookup AlarmInstance.id done.1 id with
  | none =>
    rw [perform_missing _ _ _ found]
    dsimp only
    split
    · rename_i same
      rw [same]
      exact found
    · rfl
  | some alarm =>
    have keeps := fun row => update_id (clock done.2.length) user.actor (action.action remarks)
      alarm row
    rw [perform_found _ _ _ found]
    dsimp only
    split
    · rename_i same
      rw [same]
      refine (KeyedList.lookup_updateAt_self _ _ _ keeps).trans ?_
      rw [found]
      rfl
    · rename_i apart
      exact KeyedList.lookup_updateAt_other _ _ keeps apart

theorem bulkLoop_lookup (ids : List Text) (distinct : ids.Nodup)
    (done : List AlarmInstance × List (Text × Option Text)) (id : Text) :
    ∃ now, lookup AlarmInstance.id (ids.foldl (bulkStep user remarks clock action) done).1 id =
      if id ∈ ids then (lookup AlarmInstance.id done.1 id).map fun alarm =>
        (action.action remarks).update now user.actor alarm alarm
      else lookup AlarmInstance.id done.1 id := by
  induction ids generalizing done with
  | nil => exact ⟨0, by simp⟩
  | cons first rest ih =>
    obtain ⟨fresh, distinct⟩ := nodup_cons.mp distinct
    obtain ⟨now, later⟩ := ih distinct (bulkStep user remarks clock action done first)
    rw [foldl_cons, later, bulkStep_lookup]
    by_cases same : id = first
    · refine ⟨clock done.2.length, ?_⟩
      rw [same, if_neg fresh, if_pos rfl, if_pos mem_cons_self]
    · refine ⟨now, ?_⟩
      simp only [same, if_false, mem_cons, false_or]

/-! What the request comes to. -/

theorem rowsAfter_refused (eventIds : List Text) (rows : List AlarmInstance)
    (refused : ¬isOk (bulkAlarmAction db user remarks clock action eventIds rows) = true) :
    rowsAfter db user remarks clock action eventIds rows = rows := by
  unfold rowsAfter
  cases outcome : bulkAlarmAction db user remarks clock action eventIds rows with
  | ok answer =>
    rw [outcome] at refused
    exact absurd rfl refused
  | error failure => rfl

theorem rowsAfter_accepted (eventIds : List Text) (rows : List AlarmInstance)
    (accepted : isOk (bulkAlarmAction db user remarks clock action eventIds rows) = true) :
    rowsAfter db user remarks clock action eventIds rows =
      ((uniqueIds eventIds).foldl (bulkStep user remarks clock action) (rows, [])).1 := by
  unfold bulkAlarmAction at accepted
  rw [isOk_then, isOk_then] at accepted
  have passed := (ok_unit (assertRole user .operator)).mpr accepted.1
  have checked := (ok_unit (forM (eventIds.take 200) (checkAlarm db user rows))).mpr accepted.2.1
  unfold rowsAfter bulkAlarmAction
  rw [passed, checked]
  rfl

theorem changed_iff (eventIds : List Text) (rows : List AlarmInstance)
    (accepted : isOk (bulkAlarmAction db user remarks clock action eventIds rows) = true)
    (id : Text) : Changed rows (rowsAfter db user remarks clock action eventIds rows) id ↔
      id ∈ uniqueIds eventIds ∧ (lookup AlarmInstance.id rows id).isSome = true := by
  obtain ⟨now, after⟩ := bulkLoop_lookup user remarks clock action (uniqueIds eventIds)
    (uniqueIds_nodup eventIds) (rows, []) id
  unfold Changed
  rw [rowsAfter_accepted db user remarks clock action eventIds rows accepted, after]
  by_cases listed : id ∈ uniqueIds eventIds
  · cases lookup AlarmInstance.id rows id with
    | none => simp
    | some alarm =>
      have changes := update_changes remarks now user.actor action alarm
      simp [listed, changes.symm]
  · simp [listed]

end

/-- The alarms that a bulk request changes are those that its user may change one by one, exactly
where the user has the permission and no alarm slips past the check behind a repetition. -/
theorem bulkAlarmAction_singles_iff (clock : ℕ → Instant) (action : BulkAction)
    (eventIds : List Text) (rows : List AlarmInstance) :
    IsSingleActions db stored user remarks clock action eventIds rows ↔
      ChecksCover db stored user eventIds rows := by
  have acceptance := bulkAlarmAction_ok db user remarks clock action eventIds rows
  by_cases accepted : isOk (bulkAlarmAction db user remarks clock action eventIds rows) = true
  · obtain ⟨role, checked⟩ := acceptance.mp accepted
    have changed := changed_iff db user remarks clock action eventIds rows accepted
    constructor
    · intro singles
      have each : ∀ id ∈ uniqueIds eventIds, (lookup AlarmInstance.id rows id).isSome →
          permissionsAllow stored user.toAuthUser .alarmAck = true ∧ Visible db user rows id := by
        intro id listed known
        have allowed := singles.allowed id ((changed id).mpr ⟨listed, known⟩) 0
        exact ((singleRoute_ok db stored user remarks 0 action rows id).mp allowed).2
      intro _ _
      constructor
      · intro some'
        obtain ⟨first, rest, rfl⟩ := exists_cons_of_ne_nil some'
        have leading : first ∈ (first :: rest).take 200 := mem_cons_self
        obtain ⟨alarm, found, -⟩ := checked first leading
        exact (each first (take_unique _ 200 first leading) (by rw [found]; rfl)).1
      · intro id listed _ known
        exact (each id listed known).2
    · intro cover
      obtain ⟨permission, unchecked⟩ := cover role checked
      refine ⟨?_, fun id change => ((changed id).mp change).1,
        fun _ id listed known => (changed id).mpr ⟨listed, known⟩⟩
      intro id change now
      obtain ⟨listed, known⟩ := (changed id).mp change
      have solid : eventIds ≠ [] := by
        rintro rfl
        exact absurd listed not_mem_nil
      rw [singleRoute_ok]
      refine ⟨role, permission solid, ?_⟩
      by_cases leading : id ∈ eventIds.take 200
      · exact checked id leading
      · exact unchecked id listed leading known
  · have same := rowsAfter_refused db user remarks clock action eventIds rows accepted
    refine iff_of_true ⟨?_, ?_, fun passed => absurd passed accepted⟩ ?_
    · intro id change
      rw [same] at change
      exact absurd rfl change
    · intro id change
      rw [same] at change
      exact absurd rfl change
    · intro role checked
      exact absurd (acceptance.mpr ⟨role, checked⟩) accepted

end Routes

/-! Two requests that go further than the single routes. -/

def silentAlarm : AlarmInstance :=
  ⟨['a'], none, none, .system, [], [], [], [], .p3, .open, none, none, 1, 0, 0, none, none, none,
    none, none, none⟩

def hiddenAlarm : AlarmInstance := { silentAlarm with id := ['b'], cameraId := some ['c'] }

def hiddenCamera : Camera :=
  ⟨['c'], [], .online, none, true, none, false, none, none, none, 0⟩

/-- One camera, that nobody was given. -/
def closedYard : Directory :=
  { users := [], cameraGroups := [], cameras := [hiddenCamera], cameraPermissions := []
    userIds := nodup_nil, groupIds := nodup_nil, cameraIds := nodup_singleton _
    named := forall_mem_singleton.mpr (cons_ne_nil _ _)
    permitted := fun _ listed => absurd listed not_mem_nil }

def watchman : Requester := ⟨⟨['u'], .operator⟩, []⟩

/-- The operators have lost the permission to acknowledge. -/
def withoutAck : StoredMatrices := fun _ =>
  some (.object [(PermissionKey.alarmAck.text, .atom (.bool false))])

/-- Two hundred times the alarm without a camera, then the alarm of the hidden one. -/
def repetitions : List Text := List.replicate 200 ['a'] ++ [['b']]

/-- An operator without the permission acknowledges an alarm, and one with it acknowledges an alarm
of a camera that it does not see. -/
theorem bulkAlarmAction_exceeds :
    ¬IsSingleActions closedYard withoutAck watchman ⟨none, none⟩ (fun _ => 0) .ack [['a']]
      [silentAlarm, hiddenAlarm] ∧
    ¬IsSingleActions closedYard (fun _ => none) watchman ⟨none, none⟩ (fun _ => 0) .ack repetitions
      [silentAlarm, hiddenAlarm] := by
  have silent : Visible closedYard watchman [silentAlarm, hiddenAlarm] ['a'] :=
    ⟨silentAlarm, rfl, fun cameraId named => nomatch named⟩
  have hidden : ¬Visible closedYard watchman [silentAlarm, hiddenAlarm] ['b'] := by
    rintro ⟨alarm, found, shown⟩
    cases found
    exact absurd (shown ['c'] rfl) (by decide +kernel)
  constructor
  · intro singles
    have accepted := (bulkAlarmAction_ok closedYard watchman ⟨none, none⟩ (fun _ => 0) .ack [['a']]
      [silentAlarm, hiddenAlarm]).mpr ⟨by decide, forall_mem_singleton.mpr silent⟩
    have changed := (changed_iff closedYard watchman ⟨none, none⟩ (fun _ => 0) .ack [['a']]
      [silentAlarm, hiddenAlarm] accepted ['a']).mpr ⟨by decide +kernel, rfl⟩
    have allowed := singles.allowed ['a'] changed 0
    rw [singleRoute_ok] at allowed
    exact absurd allowed.2.1 (by decide +kernel)
  · intro singles
    have checked : ∀ id ∈ repetitions.take 200,
        Visible closedYard watchman [silentAlarm, hiddenAlarm] id := by
      intro id listed
      rw [repetitions, take_left' length_replicate] at listed
      rw [eq_of_mem_replicate listed]
      exact silent
    have accepted := (bulkAlarmAction_ok closedYard watchman ⟨none, none⟩ (fun _ => 0) .ack
      repetitions [silentAlarm, hiddenAlarm]).mpr ⟨by decide, checked⟩
    have changed := (changed_iff closedYard watchman ⟨none, none⟩ (fun _ => 0) .ack repetitions
      [silentAlarm, hiddenAlarm] accepted ['b']).mpr ⟨by decide +kernel, rfl⟩
    have allowed := singles.allowed ['b'] changed 0
    rw [singleRoute_ok] at allowed
    exact hidden allowed.2.2

end DracVms.Alarms
