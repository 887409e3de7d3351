import DracVms.Cameras.EventLists
import DracVms.Recordings.Protection
import DracVms.Library.JsDate

namespace DracVms.Alarms

open Json (Text field setField Scalar)
open Database
open JsString (trim)
open JsDate (toISOString)
open Protection (camposDe)
open EventLists (asked)
open KeyedList (lookup updateAt)

inductive Failure where
  /-- What the checks of the access control answer. -/
  | access (failure : EventLists.Failure)
  | forbidden (message : Text)
  | notFound (message : Text)
  deriving DecidableEq

def unknownAlarm : Text := "Alarme não encontrado.".toList

/-- Who acts on an alarm. -/
structure Actor where
  id : Text
  name : Text

/-! The document of an alarm. -/

def text (value : Text) : Metadata := .atom (.string value)

def optional : Option Text → Metadata
  | some value => text value
  | none => .atom .null

/-- `{ ...metadata }` of what is an object: of a list, its items under their indices. -/
def spread : Option Metadata → List (Text × Metadata)
  | some (.object fields) => fields
  | some (.array items) => items.zipIdx.map fun (item, index) => (Nat.toDigits 10 index, item)
  | _ => []

def itemsOf : Option Metadata → List Metadata
  | some (.array items) => items
  | _ => []

def historyKey : Text := "transitionHistory".toList

def snoozeKey : Text := "snooze".toList

/-- `note?.trim() || null` -/
def trimmed (note : Option Text) : Option Text := truthy (note.map trim)

structure TransitionEntry where
  action : Text
  byUserId : Option Text
  byUserName : Option Text
  note : Option Text
  extra : List (Text × Metadata)

def TransitionEntry.document (now : Instant) (entry : TransitionEntry) : Metadata :=
  .object ([("at".toList, text (toISOString now)), ("action".toList, text entry.action),
    ("byUserId".toList, optional entry.byUserId), ("byUserName".toList, optional entry.byUserName),
    ("note".toList, optional entry.note)] ++ entry.extra)

def appendTransition (now : Instant) (base : List (Text × Metadata)) (entry : TransitionEntry) :
    Metadata :=
  .object (setField base
    (historyKey, .array (itemsOf (field base historyKey) ++ [entry.document now])))

/-! The actions of an operator: the row that was read, and the row as it stands at the update. -/

def acknowledge (now : Instant) (user : Actor) (note : Option Text)
    (existing row : AlarmInstance) : AlarmInstance :=
  { row with
    status := .acked
    acknowledgedAt := some now
    acknowledgedByUserId := some user.id
    acknowledgedByUserName := some user.name
    note := (trimmed note).or row.note
    metadata := some (appendTransition now (spread existing.metadata)
      ⟨"ACKNOWLEDGED".toList, some user.id, some user.name, trimmed note, []⟩) }

def resolve (now : Instant) (user : Actor) (note : Option Text)
    (existing row : AlarmInstance) : AlarmInstance :=
  { row with
    status := .resolved
    resolvedAt := some now
    resolvedByUserId := some user.id
    resolvedByUserName := some user.name
    note := (trimmed note).or row.note
    metadata := some (appendTransition now (spread existing.metadata)
      ⟨"RESOLVED".toList, some user.id, some user.name, trimmed note, []⟩) }

/-- A note of blanks changes nothing. -/
def addNote (now : Instant) (user : Actor) (note : Text)
    (existing row : AlarmInstance) : AlarmInstance :=
  match trimmed (some note) with
  | none => row
  | some added =>
    { row with
      note := some (match existing.note with
        | some before => if trim before = [] then added else before ++ "\n".toList ++ added
        | none => added)
      metadata := some (appendTransition now (spread existing.metadata)
        ⟨"NOTE_ADDED".toList, some user.id, some user.name, some added, []⟩) }

/-- Whole minutes, from one to a day. -/
def safeMinutes (minutes : ℚ) : ℕ := (max 1 (min 1440 minutes.floor)).toNat

def snoozedUntil (now : Instant) (minutes : ℚ) : Instant := now + safeMinutes minutes * 60 * 1000

def snoozeDocument (now : Instant) (user : Actor) (minutes : ℚ) (note : Option Text) : Metadata :=
  .object [("active".toList, .atom (.bool true)),
    ("until".toList, text (toISOString (snoozedUntil now minutes))),
    ("byUserId".toList, text user.id), ("byUserName".toList, text user.name),
    ("note".toList, optional (trimmed note))]

def snooze (now : Instant) (user : Actor) (minutes : ℚ) (note : Option Text)
    (existing row : AlarmInstance) : AlarmInstance :=
  { row with
    status := .acked
    acknowledgedAt := existing.acknowledgedAt.or (some now)
    acknowledgedByUserId := existing.acknowledgedByUserId.or (some user.id)
    acknowledgedByUserName := existing.acknowledgedByUserName.or (some user.name)
    note := ((trimmed note).or (truthy existing.note)).or row.note
    metadata := some (appendTransition now
      (setField (spread existing.metadata) (snoozeKey, snoozeDocument now user minutes note))
      ⟨"SNOOZED".toList, some user.id, some user.name, trimmed note,
        [("minutes".toList, .atom (.number (safeMinutes minutes))),
          ("until".toList, text (toISOString (snoozedUntil now minutes)))]⟩) }

/-- The document of the snooze, cleared. -/
def clearedDocument (now : Instant) (user : Actor) (note : Option Text)
    (base : List (Text × Metadata)) : Metadata :=
  .object (([("active".toList, .atom (.bool false)), ("clearedAt".toList, text (toISOString now)),
    ("clearedByUserId".toList, text user.id), ("clearedByUserName".toList, text user.name),
    ("clearNote".toList, optional (trimmed note))] : List (Text × Metadata)).foldl setField
      (spread (field base snoozeKey)))

def unsnooze (now : Instant) (user : Actor) (note : Option Text)
    (existing row : AlarmInstance) : AlarmInstance :=
  let base := spread existing.metadata
  { row with
    metadata := some (appendTransition now
      (setField base (snoozeKey, clearedDocument now user note base))
      ⟨"UNSNOOZED".toList, some user.id, some user.name, trimmed note, []⟩) }

inductive Action where
  | acknowledge (note : Option Text)
  | resolve (note : Option Text)
  | addNote (note : Text)
  | snooze (minutes : ℚ) (note : Option Text)
  | unsnooze (note : Option Text)

def Action.update (now : Instant) (user : Actor) :
    Action → AlarmInstance → AlarmInstance → AlarmInstance
  | .acknowledge note => Alarms.acknowledge now user note
  | .resolve note => Alarms.resolve now user note
  | .addNote note => Alarms.addNote now user note
  | .snooze minutes note => Alarms.snooze now user minutes note
  | .unsnooze note => Alarms.unsnooze now user note

def ensureExists (rows : List AlarmInstance) (id : Text) : Except Failure AlarmInstance :=
  match lookup AlarmInstance.id rows id with
  | some alarm => .ok alarm
  | none => .error (.notFound unknownAlarm)

/-- An action that nothing comes in between of: the row that is updated is the row that was read. -/
def perform (now : Instant) (user : Actor) (action : Action) (rows : List AlarmInstance)
    (id : Text) : Except Failure (List AlarmInstance) := do
  let existing ← ensureExists rows id
  return updateAt AlarmInstance.id rows id (action.update now user existing)

variable (now : Instant)

theorem perform_found (user : Actor) (action : Action) {rows : List AlarmInstance} {id : Text}
    {alarm : AlarmInstance} (found : lookup AlarmInstance.id rows id = some alarm) :
    perform now user action rows id =
      .ok (updateAt AlarmInstance.id rows id (action.update now user alarm)) := by
  rw [perform, ensureExists, found]
  rfl

theorem perform_missing (user : Actor) (action : Action) {rows : List AlarmInstance} {id : Text}
    (missing : lookup AlarmInstance.id rows id = none) :
    perform now user action rows id = .error (.notFound unknownAlarm) := by
  rw [perform, ensureExists, missing]
  rfl

/-! What is read of a document. -/

/-- `list` shows the history of an object, and none of anything else. -/
def transitionHistory (metadata : Option Metadata) : List Metadata :=
  itemsOf (field (camposDe metadata) historyKey)

def snoozeOf (metadata : Option Metadata) : Option Metadata := field (camposDe metadata) snoozeKey

/-- `Boolean(value)` -/
def holds : Option Metadata → Bool
  | none => false
  | some (.atom .null) => false
  | some (.atom (.bool b)) => b
  | some (.atom (.number n)) => n ≠ 0
  | some (.atom (.string value)) => value ≠ []
  | some _ => true

/-! What an action leaves in the document. -/

theorem field_spread (metadata : Option Metadata) (key : Text)
    (named : ∃ c ∈ key, c.isDigit = false) :
    field (spread metadata) key = field (camposDe metadata) key := by
  match metadata with
  | none => rfl
  | some (.atom _) => rfl
  | some (.object _) => rfl
  | some (.array items) =>
    obtain ⟨c, present, letter⟩ := named
    have absent : ∀ entry ∈ spread (some (.array items)), entry.1 ≠ key := by
      intro entry listed same
      obtain ⟨⟨item, index⟩, -, rfl⟩ := List.mem_map.mp listed
      rw [← same] at present
      have digit := Nat.isDigit_of_mem_toDigits (by decide) (by decide) present
      rw [letter] at digit
      cases digit
    have nothing : (spread (some (.array items))).find? (fun entry => decide (entry.1 = key)) =
        none := by
      apply List.find?_eq_none.mpr
      intro entry listed
      simpa using absent entry listed
    rw [field, nothing]
    rfl

theorem historyKey_named : ∃ c ∈ historyKey, c.isDigit = false := ⟨'t', by decide, by decide⟩

theorem snoozeKey_named : ∃ c ∈ snoozeKey, c.isDigit = false := ⟨'s', by decide, by decide⟩

theorem appendTransition_history (base : List (Text × Metadata)) (entry : TransitionEntry) :
    transitionHistory (some (appendTransition now base entry)) =
      itemsOf (field base historyKey) ++ [entry.document now] := by
  simp [transitionHistory, appendTransition, camposDe, Json.field_setField, itemsOf]

theorem appendTransition_snooze (base : List (Text × Metadata)) (entry : TransitionEntry) :
    snoozeOf (some (appendTransition now base entry)) = field base snoozeKey := by
  have apart : historyKey ≠ snoozeKey := by decide
  simp [snoozeOf, appendTransition, camposDe, Json.field_setField, apart]

/-- What the action adds to the history; a blank note adds nothing. -/
def Action.entry (now : Instant) (user : Actor) : Action → Option Metadata
  | .acknowledge note => some (TransitionEntry.document now
      ⟨"ACKNOWLEDGED".toList, some user.id, some user.name, trimmed note, []⟩)
  | .resolve note => some (TransitionEntry.document now
      ⟨"RESOLVED".toList, some user.id, some user.name, trimmed note, []⟩)
  | .addNote note => (trimmed (some note)).map fun added => TransitionEntry.document now
      ⟨"NOTE_ADDED".toList, some user.id, some user.name, some added, []⟩
  | .snooze minutes note => some (TransitionEntry.document now
      ⟨"SNOOZED".toList, some user.id, some user.name, trimmed note,
        [("minutes".toList, .atom (.number (safeMinutes minutes))),
          ("until".toList, text (toISOString (snoozedUntil now minutes)))]⟩)
  | .unsnooze note => some (TransitionEntry.document now
      ⟨"UNSNOOZED".toList, some user.id, some user.name, trimmed note, []⟩)

section

variable (user : Actor) (action : Action) (existing row : AlarmInstance)

theorem update_blank (blank : action.entry now user = none) :
    action.update now user existing row = row := by
  cases action with
  | addNote note =>
    rw [Action.entry, Option.map_eq_none_iff] at blank
    simp [Action.update, addNote, blank]
  | acknowledge note | resolve note | snooze minutes note | unsnooze note => cases blank

theorem update_history (entry : Metadata) (adds : action.entry now user = some entry) :
    transitionHistory (action.update now user existing row).metadata =
      transitionHistory existing.metadata ++ [entry] := by
  have read : itemsOf (field (spread existing.metadata) historyKey) =
      transitionHistory existing.metadata := by
    rw [field_spread _ _ historyKey_named]
    rfl
  have apart : snoozeKey ≠ historyKey := by decide
  cases action with
  | acknowledge note | resolve note =>
    cases adds
    exact (appendTransition_history now _ _).trans (by rw [read])
  | addNote note =>
    obtain ⟨added, solid, rfl⟩ := Option.map_eq_some_iff.mp adds
    simp only [Action.update, addNote, solid]
    exact (appendTransition_history now _ _).trans (by rw [read])
  | snooze minutes note | unsnooze note =>
    cases adds
    refine (appendTransition_history now _ _).trans ?_
    rw [Json.field_setField, if_neg apart, read]

theorem update_id : (action.update now user existing row).id = row.id := by
  cases action with
  | addNote note =>
    simp only [Action.update, addNote]
    split <;> rfl
  | acknowledge note | resolve note | snooze minutes note | unsnooze note => rfl

end

end DracVms.Alarms
