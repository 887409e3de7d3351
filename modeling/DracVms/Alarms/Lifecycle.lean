import DracVms.Alarms.ProcessEvent
import DracVms.Jobs.AlarmDelivery
import DracVms.Library.Runs

namespace DracVms.Alarms

open List

open Json (Text field)
open Database
open KeyedList (lookup updateAt)
open Jobs (DeliveryEntry appendDelivery appendPushOutcome)

/-- What decides after how long without movement an alarm ends: the setting, and the rule. -/
structure QuietSettings where
  configured : ℕ
  window : Option ℕ

def QuietSettings.seconds (quiet : QuietSettings) : ℕ :=
  quietSecondsOf quiet.configured quiet.window

/-- An operation between what it has read and its next access to the table. -/
inductive Pending where
  | process (event : EventInput) (read : Surroundings)
  | autoResolve (event : EventInput) (targets : List Text)
  | absorb (event : EventInput) (rule : AlarmRule) (existing : AlarmInstance)
  | create (event : EventInput) (source : AlarmSource) (rule : AlarmRule)
  | act (user : Actor) (action : Action) (existing : AlarmInstance)
  | deliver (entry : DeliveryEntry) (id : Text) (metadata : Option Metadata)
  | receipt (entry : DeliveryEntry) (id : Text) (metadata : Option Metadata)

/-- An alarm, with the event that opened it and the window of the rule at that moment. -/
structure Birth where
  alarmId : Text
  occurredAt : Instant
  dedupWindowSeconds : ℕ

/-- The table of the alarms and the operations that are under way. The births, and the events that
each alarm has absorbed, are what the table does not tell. -/
structure Desk where
  rows : List AlarmInstance
  pending : List Pending
  births : List Birth
  absorbed : List (Text × Text)

namespace Desk

def empty : Desk := ⟨[], [], [], []⟩

def ids (s : Desk) : List Text := s.rows.map AlarmInstance.id

end Desk

inductive Step where
  /-- An event comes in. -/
  | report (event : EventInput) (read : Surroundings) (quiet : QuietSettings)
  /-- The health check looks for alarms of a movement that is over. -/
  | quiet (now : Instant) (quiet : QuietSettings)
  /-- An operator asks for an action, and the row is read. -/
  | request (user : Actor) (action : Action) (id : Text)
  /-- A delivery was attempted, and the document is read. -/
  | deliver (entry : DeliveryEntry) (id : Text)
  | receipt (entry : DeliveryEntry) (id : Text)
  /-- An operation under way comes to its next access. -/
  | advance (index : ℕ) (now : Instant) (newId : Text)

/-- The read of `processEvent`: what the event will be written to. -/
def processRead (event : EventInput) (read : Surroundings) (rows : List AlarmInstance) :
    Option Pending :=
  match inferSource event.type with
  | none => none
  | some source =>
    if isRecoveryEvent event.type then
      let targets := rows.filter (isRecovered event.cameraId source)
      if targets.isEmpty then none
      else some (.autoResolve event (targets.map AlarmInstance.id))
    else match openingRule event read with
      | none => none
      | some rule =>
        match findExisting event source rule.dedupWindowSeconds rows with
        | some existing => some (.absorb event rule existing)
        | none => some (.create event source rule)

def replaceMetadata (metadata : Metadata) (alarm : AlarmInstance) : AlarmInstance :=
  { alarm with metadata := some metadata }

/-- The next access of an operation under way. -/
def advance (s : Desk) (index : ℕ) (now : Instant) (newId : Text) (operation : Pending) :
    Option Desk :=
  let done := { s with pending := s.pending.eraseIdx index }
  match operation with
  | .process event read =>
    match processRead event read s.rows with
    | none => some done
    | some next => some { s with pending := s.pending.set index next }
  | .autoResolve event targets =>
    some { done with
      rows := s.rows.map fun alarm =>
        if alarm.id ∈ targets then autoResolve event alarm else alarm }
  | .absorb event rule existing =>
    some { done with
      rows := updateAt AlarmInstance.id s.rows existing.id (absorb event rule existing)
      absorbed := s.absorbed ++ [(existing.id, event.eventId)] }
  | .create event source rule =>
    if newId ∈ s.ids then none
    else some { done with
      rows := s.rows ++ [opened event source rule newId]
      births := s.births ++ [⟨newId, event.occurredAt, rule.dedupWindowSeconds⟩]
      absorbed := s.absorbed ++ [(newId, event.eventId)] }
  | .act user action existing =>
    some { done with
      rows := updateAt AlarmInstance.id s.rows existing.id (action.update now user existing) }
  | .deliver entry id metadata =>
    some { done with
      rows := updateAt AlarmInstance.id s.rows id
        (replaceMetadata (appendDelivery entry metadata)) }
  | .receipt entry id metadata =>
    some { done with
      rows := updateAt AlarmInstance.id s.rows id
        (replaceMetadata (appendPushOutcome entry metadata)) }

def step (s : Desk) : Step → Option Desk
  | .report event read quiet =>
    if (inferSource event.type).isNone then some s
    else some { s with
      rows := if event.type = motionDetected then
          resolveStaleMotionAlarms event.occurredAt quiet.seconds s.rows
        else s.rows
      pending := s.pending ++ [.process event read] }
  | .quiet now quiet => some { s with rows := resolveStaleMotionAlarms now quiet.seconds s.rows }
  | .request user action id =>
    (lookup AlarmInstance.id s.rows id).map fun existing =>
      { s with pending := s.pending ++ [.act user action existing] }
  | .deliver entry id =>
    (lookup AlarmInstance.id s.rows id).map fun alarm =>
      { s with pending := s.pending ++ [.deliver entry id alarm.metadata] }
  | .receipt entry id =>
    (lookup AlarmInstance.id s.rows id).map fun alarm =>
      { s with pending := s.pending ++ [.receipt entry id alarm.metadata] }
  | .advance index now newId => s.pending[index]?.bind (advance s index now newId)

/-! What the life of an alarm promises. -/

/-- The events of two openings do not fall within the window of the later one. -/
def FarApart (first second : Birth) : Prop :=
  second.dedupWindowSeconds * 1000 < ((first.occurredAt : ℤ) - second.occurredAt).natAbs

/-- Two alarms of one camera, source and type that both are open or acknowledged. -/
def Rivals (first second : AlarmInstance) : Prop :=
  isLive first = true ∧ isLive second = true ∧ first.cameraId = second.cameraId ∧
    first.source = second.source ∧ first.type = second.type

def NoRivals (rows : List AlarmInstance) (first second : Birth) : Prop :=
  ∀ a ∈ rows, ∀ b ∈ rows, a.id = first.alarmId → b.id = second.alarmId → Rivals a b →
    FarApart first second

/-- The events that an alarm has absorbed, the one that opened it among them. -/
def absorbedBy (absorbed : List (Text × Text)) (id : Text) : List (Text × Text) :=
  absorbed.filter fun entry => entry.1 = id

/-- The step is the write of this action on this alarm. -/
def writes (s : Desk) (a : Step) (id : Text) (user : Actor) (action : Action) (now : Instant) :
    Prop :=
  ∃ index newId existing, a = .advance index now newId ∧
    s.pending[index]? = some (.act user action existing) ∧ existing.id = id

/-- The snooze goes on, or an operator has ended it or has put another one in its place. -/
def SnoozeKept (s : Desk) (a : Step) (before after : AlarmInstance) : Prop :=
  snoozeOf after.metadata = snoozeOf before.metadata ∨
    (∃ user note now, writes s a before.id user (.unsnooze note) now) ∨
    ∃ user minutes note now, writes s a before.id user (.snooze minutes note) now ∧
      snoozeOf after.metadata = some (snoozeDocument now user minutes note)

/-- What holds all along the run of the steps. -/
structure LifeKept (steps : List Step) : Prop where
  /-- Open alarms of one kind were opened by events that are a window apart. -/
  apart : ∀ n s, Runs.run step .empty (steps.take n) = some s → s.births.Pairwise (NoRivals s.rows)
  counted : ∀ n s, Runs.run step .empty (steps.take n) = some s → ∀ row ∈ s.rows,
    row.occurrenceCount = (absorbedBy s.absorbed row.id).length
  /-- An alarm that was resolved is not acknowledged later, and its history goes on. -/
  later : ∀ n m s t, n ≤ m → Runs.run step .empty (steps.take n) = some s →
    Runs.run step .empty (steps.take m) = some t → ∀ row ∈ s.rows, ∃ row' ∈ t.rows,
      row'.id = row.id ∧ (row.status = .resolved → row'.status ≠ .acked) ∧
        transitionHistory row.metadata <+: transitionHistory row'.metadata
  /-- The entry of an action that was completed is in the history ever after. -/
  completed : ∀ n m s t a id user action now entry, n < m →
    Runs.run step .empty (steps.take n) = some s → steps[n]? = some a →
    writes s a id user action now → action.entry now user = some entry →
    Runs.run step .empty (steps.take m) = some t →
      ∃ row ∈ t.rows, row.id = id ∧ entry ∈ transitionHistory row.metadata
  slept : ∀ n s t a, Runs.run step .empty (steps.take n) = some s → steps[n]? = some a →
    step s a = some t → ∀ row ∈ s.rows, ∃ row' ∈ t.rows, row'.id = row.id ∧ SnoozeKept s a row row'

/-! The condition on the steps. -/

/-- The two documents show the same history and the same snooze. -/
def SameTrail (first second : Option Metadata) : Prop :=
  transitionHistory first = transitionHistory second ∧ snoozeOf first = snoozeOf second

/-- The action makes the alarm an acknowledged one. -/
def Action.acknowledges : Action → Bool
  | .acknowledge _ => true
  | .snooze _ _ => true
  | _ => false

/-- An operation that writes finds the alarm as it read it, as far as it matters. -/
def WriteOrderly (s : Desk) (now : Instant) : Pending → Prop
  | .absorb event _ existing => ∀ row ∈ s.rows, row.id = existing.id →
      row.firstOccurredAt ≤ event.occurredAt ∧
        transitionHistory row.metadata <+: transitionHistory (some (eventMetadata event)) ∧
        snoozeOf (some (eventMetadata event)) = snoozeOf row.metadata
  | .create event source rule =>
    ∀ row ∈ s.rows, absorbs event source rule.dedupWindowSeconds row = false
  | .act user action existing => action.entry now user ≠ none → ∀ row ∈ s.rows,
      row.id = existing.id → SameTrail existing.metadata row.metadata ∧
        (action.acknowledges = true → row.status ≠ .resolved)
  | .deliver _ id metadata => ∀ row ∈ s.rows, row.id = id → SameTrail metadata row.metadata
  | .receipt _ id metadata => ∀ row ∈ s.rows, row.id = id → SameTrail metadata row.metadata
  | .process _ _ => True
  | .autoResolve _ _ => True

def Orderly (s : Desk) : Step → Prop
  | .advance index now _ => ∀ operation, s.pending[index]? = some operation →
      WriteOrderly s now operation
  | _ => True

/-! What a step does to the rows. -/

/-- The change that an operation makes to each row. -/
def changeOf (now : Instant) : Pending → AlarmInstance → AlarmInstance
  | .process _ _, row => row
  | .autoResolve event targets, row => if row.id ∈ targets then autoResolve event row else row
  | .absorb event rule existing, row =>
    if row.id = existing.id then absorb event rule existing row else row
  | .create _ _ _, row => row
  | .act user action existing, row =>
    if row.id = existing.id then action.update now user existing row else row
  | .deliver entry id metadata, row =>
    if row.id = id then replaceMetadata (appendDelivery entry metadata) row else row
  | .receipt entry id metadata, row =>
    if row.id = id then replaceMetadata (appendPushOutcome entry metadata) row else row

def quieted (now : Instant) (quietSeconds : ℕ) (row : AlarmInstance) : AlarmInstance :=
  if isStale now quietSeconds row then resolveStale now quietSeconds row else row

def change (s : Desk) : Step → AlarmInstance → AlarmInstance
  | .report event _ quiet, row =>
    if event.type = motionDetected then quieted event.occurredAt quiet.seconds row else row
  | .quiet now quiet, row => quieted now quiet.seconds row
  | .advance index now _, row => (s.pending[index]?).elim row fun operation =>
    changeOf now operation row
  | _, row => row

/-- An alarm that is about to be opened. -/
structure Opening where
  event : EventInput
  source : AlarmSource
  rule : AlarmRule
  id : Text

def Opening.alarm (opening : Opening) : AlarmInstance :=
  opened opening.event opening.source opening.rule opening.id

def Opening.birth (opening : Opening) : Birth :=
  ⟨opening.id, opening.event.occurredAt, opening.rule.dedupWindowSeconds⟩

def openingOf (newId : Text) : Pending → Option Opening
  | .create event source rule => some ⟨event, source, rule, newId⟩
  | _ => none

def opening (s : Desk) : Step → Option Opening
  | .advance index _ newId => (s.pending[index]?).bind (openingOf newId)
  | _ => none

/-- The alarm and the event that it absorbs. -/
def absorptionOf : Pending → Option (Text × Text)
  | .absorb event _ existing => some (existing.id, event.eventId)
  | _ => none

def absorption (s : Desk) : Step → Option (Text × Text)
  | .advance index _ _ => (s.pending[index]?).bind absorptionOf
  | _ => none

/-- What an operation has read is an alarm of the table; what absorbs an event is a live one. -/
def Pending.Based (ids : List Text) : Pending → Prop
  | .absorb _ _ existing => existing.id ∈ ids ∧ isLive existing = true
  | .act _ _ existing => existing.id ∈ ids
  | _ => True

/-- What a step does, said once. -/
structure Moves (s : Desk) (a : Step) (t : Desk) : Prop where
  rows : t.rows = s.rows.map (change s a) ++ (opening s a).toList.map Opening.alarm
  births : t.births = s.births ++ (opening s a).toList.map Opening.birth
  absorbed : t.absorbed = s.absorbed ++ (absorption s a).toList ++
    (opening s a).toList.map fun opening => (opening.id, opening.event.eventId)
  fresh : ∀ opening' ∈ opening s a, opening'.id ∉ s.ids
  pending : ∀ operation ∈ t.pending, operation ∈ s.pending ∨ operation.Based s.ids

theorem processRead_based {event : EventInput} {read : Surroundings} {rows : List AlarmInstance}
    {next : Pending} (chosen : processRead event read rows = some next) :
    next.Based (rows.map AlarmInstance.id) := by
  unfold processRead at chosen
  split at chosen
  · cases chosen
  · rename_i source _
    split at chosen
    · dsimp only at chosen
      split at chosen <;> cases chosen
      exact trivial
    · split at chosen
      · cases chosen
      · split at chosen
        · rename_i found
          cases chosen
          obtain ⟨listed, absorbing⟩ := findExisting_some found
          unfold absorbs at absorbing
          simp only [Bool.and_eq_true] at absorbing
          exact ⟨mem_map_of_mem listed, absorbing.1.2⟩
        · cases chosen
          exact trivial

variable {s t : Desk}

theorem advance_moves {index : ℕ} {now : Instant} {newId : Text} {operation : Pending}
    (under : s.pending[index]? = some operation)
    (taken : advance s index now newId operation = some t) :
    Moves s (.advance index now newId) t := by
  have changed : ∀ row, change s (.advance index now newId) row = changeOf now operation row := by
    intro row
    simp only [change, under, Option.elim_some]
  have opens : opening s (.advance index now newId) = openingOf newId operation := by
    simp only [opening, under, Option.bind_some]
  have absorbs' : absorption s (.advance index now newId) = absorptionOf operation := by
    simp only [absorption, under, Option.bind_some]
  have shorter : ∀ operation ∈ s.pending.eraseIdx index,
      operation ∈ s.pending ∨ operation.Based s.ids :=
    fun operation listed => Or.inl (mem_of_mem_eraseIdx listed)
  have same : s.rows.map (change s (.advance index now newId)) =
      s.rows.map (changeOf now operation) :=
    map_congr_left fun row _ => changed row
  cases operation with
  | process event read =>
    have still : s.rows.map (changeOf now (.process event read)) = s.rows :=
      map_id' s.rows
    unfold advance at taken
    dsimp only at taken
    split at taken
    · cases taken
      exact ⟨by simp [same, still, opens, openingOf], by simp [opens, openingOf],
        by simp [opens, absorbs', openingOf, absorptionOf], by simp [opens, openingOf], shorter⟩
    · rename_i next chosen
      cases taken
      refine ⟨by simp [same, still, opens, openingOf], by simp [opens, openingOf],
        by simp [opens, absorbs', openingOf, absorptionOf], by simp [opens, openingOf], ?_⟩
      intro operation listed
      rcases mem_or_eq_of_mem_set listed with before | equal
      · exact Or.inl before
      · rw [equal]
        exact Or.inr (processRead_based chosen)
  | autoResolve event targets =>
    cases taken
    exact ⟨by simp [same, opens, openingOf, changeOf], by simp [opens, openingOf],
      by simp [opens, absorbs', openingOf, absorptionOf], by simp [opens, openingOf], shorter⟩
  | absorb event rule existing =>
    cases taken
    exact ⟨by simp [same, opens, openingOf, changeOf, updateAt], by simp [opens, openingOf],
      by simp [opens, absorbs', openingOf, absorptionOf], by simp [opens, openingOf], shorter⟩
  | create event source rule =>
    have still : s.rows.map (changeOf now (.create event source rule)) = s.rows :=
      map_id' s.rows
    unfold advance at taken
    dsimp only at taken
    split at taken
    · cases taken
    · rename_i fresh
      cases taken
      exact ⟨by simp [same, still, opens, openingOf, Opening.alarm],
        by simp [opens, openingOf, Opening.birth],
        by simp [opens, absorbs', openingOf, absorptionOf],
        by simpa [opens, openingOf] using fresh, shorter⟩
  | act user action existing | deliver entry id metadata | receipt entry id metadata =>
    cases taken
    exact ⟨by simp [same, opens, openingOf, changeOf, updateAt], by simp [opens, openingOf],
      by simp [opens, absorbs', openingOf, absorptionOf], by simp [opens, openingOf], shorter⟩

variable {a : Step}

theorem Moves.added {s : Desk} {operation : Pending} (alone : ∀ row, change s a row = row)
    (unopened : opening s a = none) (unabsorbed : absorption s a = none)
    (based : operation.Based s.ids) : Moves s a { s with pending := s.pending ++ [operation] } := by
  have still : s.rows.map (change s a) = s.rows := by
    rw [map_congr_left fun row _ => alone row, map_id']
  refine ⟨by simp [still, unopened], by simp [unopened], by simp [unabsorbed, unopened],
    by simp [unopened], ?_⟩
  intro added listed
  rcases mem_append.mp listed with before | last
  · exact Or.inl before
  · rw [mem_singleton.mp last]
    exact Or.inr based

theorem Moves.quieted {s : Desk} {rows : List AlarmInstance}
    (changes : rows = s.rows.map (change s a)) (unopened : opening s a = none)
    (unabsorbed : absorption s a = none) : Moves s a { s with rows := rows } :=
  ⟨by simp [changes, unopened], by simp [unopened], by simp [unabsorbed, unopened],
    by simp [unopened], fun _ listed => Or.inl listed⟩

theorem step_moves (taken : step s a = some t) : Moves s a t := by
  cases a with
  | report event read quiet =>
    simp only [step] at taken
    split at taken
    · rename_i foreign
      cases taken
      have other : event.type ≠ motionDetected := by
        intro motion
        rw [motion] at foreign
        exact absurd foreign (by decide)
      have alone : ∀ row, change s (.report event read quiet) row = row := by
        intro row
        simp only [change, if_neg other]
      have still : s.rows = s.rows.map (change s (.report event read quiet)) := by
        rw [map_congr_left fun row _ => alone row, map_id']
      exact Moves.quieted still rfl rfl
    · cases taken
      have changes : (if event.type = motionDetected then
          resolveStaleMotionAlarms event.occurredAt quiet.seconds s.rows else s.rows) =
          s.rows.map (change s (.report event read quiet)) := by
        by_cases motion : event.type = motionDetected
        · simp only [if_pos motion, resolveStaleMotionAlarms]
          apply map_congr_left
          intro row _
          simp only [change, if_pos motion, Alarms.quieted]
        · have alone : ∀ row, change s (.report event read quiet) row = row := by
            intro row
            simp only [change, if_neg motion]
          rw [if_neg motion, map_congr_left fun row _ => alone row, map_id']
      have quieted := Moves.quieted changes rfl rfl
      refine ⟨quieted.rows, quieted.births, quieted.absorbed, quieted.fresh, ?_⟩
      intro operation listed
      rcases mem_append.mp listed with before | last
      · exact Or.inl before
      · rw [mem_singleton.mp last]
        exact Or.inr trivial
  | quiet now quiet =>
    cases taken
    exact Moves.quieted rfl rfl rfl
  | request user action id =>
    obtain ⟨existing, found, rfl⟩ := Option.map_eq_some_iff.mp taken
    have listed := (KeyedList.lookup_mem found).1
    exact Moves.added (fun row => rfl) rfl rfl (mem_map_of_mem listed)
  | deliver entry id | receipt entry id =>
    obtain ⟨alarm, -, rfl⟩ := Option.map_eq_some_iff.mp taken
    exact Moves.added (fun row => rfl) rfl rfl trivial
  | advance index now newId =>
    obtain ⟨operation, under, moved⟩ := Option.bind_eq_some_iff.mp taken
    exact advance_moves under moved

/-! What stays of an alarm. -/

/-- The columns that no step writes after the alarm was opened. -/
structure SameAlarm (row row' : AlarmInstance) : Prop where
  id : row'.id = row.id
  cameraId : row'.cameraId = row.cameraId
  source : row'.source = row.source
  type : row'.type = row.type
  first : row'.firstOccurredAt = row.firstOccurredAt

theorem SameAlarm.refl (row : AlarmInstance) : SameAlarm row row := ⟨rfl, rfl, rfl, rfl, rfl⟩

theorem update_same (now : Instant) (user : Actor) (action : Action) (existing row : AlarmInstance) :
    SameAlarm row (action.update now user existing row) ∧
      (action.update now user existing row).lastOccurredAt = row.lastOccurredAt ∧
      (action.update now user existing row).occurrenceCount = row.occurrenceCount := by
  cases action with
  | addNote note =>
    simp only [Action.update, addNote]
    split
    · exact ⟨SameAlarm.refl row, rfl, rfl⟩
    · exact ⟨⟨rfl, rfl, rfl, rfl, rfl⟩, rfl, rfl⟩
  | acknowledge note | resolve note | snooze minutes note | unsnooze note =>
    exact ⟨⟨rfl, rfl, rfl, rfl, rfl⟩, rfl, rfl⟩

theorem absorb_same (event : EventInput) (rule : AlarmRule) (existing row : AlarmInstance) :
    SameAlarm row (absorb event rule existing row) ∧
      (absorb event rule existing row).lastOccurredAt = event.occurredAt ∧
      (absorb event rule existing row).occurrenceCount = row.occurrenceCount + 1 ∧
      (absorb event rule existing row).metadata = some (eventMetadata event) := by
  unfold absorb
  split <;> exact ⟨⟨rfl, rfl, rfl, rfl, rfl⟩, rfl, rfl, rfl⟩

theorem changeOf_same (now : Instant) (operation : Pending) (row : AlarmInstance) :
    SameAlarm row (changeOf now operation row) ∧
      (changeOf now operation row).occurrenceCount = row.occurrenceCount +
        (absorbedBy (absorptionOf operation).toList row.id).length := by
  cases operation with
  | process event read | create event source rule => exact ⟨SameAlarm.refl row, rfl⟩
  | autoResolve event targets =>
    simp only [changeOf]
    split
    · exact ⟨⟨rfl, rfl, rfl, rfl, rfl⟩, rfl⟩
    · exact ⟨SameAlarm.refl row, rfl⟩
  | absorb event rule existing =>
    obtain ⟨same, -, count, -⟩ := absorb_same event rule existing row
    simp only [changeOf]
    split
    · rename_i here
      exact ⟨same, by simp [count, absorptionOf, absorbedBy, here]⟩
    · rename_i elsewhere
      exact ⟨SameAlarm.refl row, by simp [absorptionOf, absorbedBy, Ne.symm elsewhere]⟩
  | act user action existing =>
    obtain ⟨same, -, count⟩ := update_same now user action existing row
    simp only [changeOf]
    split
    · exact ⟨same, count⟩
    · exact ⟨SameAlarm.refl row, rfl⟩
  | deliver entry id metadata | receipt entry id metadata =>
    simp only [changeOf]
    split
    · exact ⟨⟨rfl, rfl, rfl, rfl, rfl⟩, rfl⟩
    · exact ⟨SameAlarm.refl row, rfl⟩

theorem quieted_same (now : Instant) (quietSeconds : ℕ) (row : AlarmInstance) :
    SameAlarm row (quieted now quietSeconds row) ∧
      (quieted now quietSeconds row).occurrenceCount = row.occurrenceCount := by
  unfold quieted
  split
  · exact ⟨⟨rfl, rfl, rfl, rfl, rfl⟩, rfl⟩
  · exact ⟨SameAlarm.refl row, rfl⟩

theorem change_same (s : Desk) (a : Step) (row : AlarmInstance) : SameAlarm row (change s a row) ∧
      (change s a row).occurrenceCount = row.occurrenceCount +
        (absorbedBy (absorption s a).toList row.id).length := by
  cases a with
  | report event read quiet =>
    simp only [change]
    split
    · exact quieted_same _ _ row
    · exact ⟨SameAlarm.refl row, rfl⟩
  | quiet now quiet => exact quieted_same _ _ row
  | request user action id | deliver entry id | receipt entry id => exact ⟨SameAlarm.refl row, rfl⟩
  | advance index now newId =>
    simp only [change, absorption]
    cases s.pending[index]? with
    | none => exact ⟨SameAlarm.refl row, rfl⟩
    | some operation => exact changeOf_same now operation row

/-! The accounts, which no order of the steps can spoil. -/

structure Accounts (s : Desk) : Prop where
  distinct : s.ids.Nodup
  counted : ∀ row ∈ s.rows, row.occurrenceCount = (absorbedBy s.absorbed row.id).length
  known : ∀ entry ∈ s.absorbed, entry.1 ∈ s.ids
  based : ∀ operation ∈ s.pending, operation.Based s.ids

theorem Moves.ids (moves : Moves s a t) : t.ids = s.ids ++ (opening s a).toList.map Opening.id := by
  have kept : ∀ row, (change s a row).id = row.id := fun row => (change_same s a row).1.id
  unfold Desk.ids
  rw [moves.rows, map_append, map_map, map_map]
  congr 1
  apply map_congr_left
  intro row _
  exact kept row

theorem absorption_known {s : Desk} (accounts : Accounts s) :
    ∀ entry ∈ (absorption s a).toList, entry.1 ∈ s.ids := by
  intro entry listed
  rw [Option.mem_toList] at listed
  cases a with
  | advance index now newId =>
    obtain ⟨operation, under, absorbed⟩ := Option.bind_eq_some_iff.mp listed
    cases operation with
    | absorb event rule existing =>
      cases absorbed
      exact (accounts.based _ (List.mem_of_getElem? under)).1
    | _ => cases absorbed
  | _ => cases listed

theorem absorbedBy_append (first second : List (Text × Text)) (id : Text) :
    absorbedBy (first ++ second) id = absorbedBy first id ++ absorbedBy second id :=
  filter_append ..

theorem absorbedBy_unknown {absorbed : List (Text × Text)} {id : Text}
    (unknown : ∀ entry ∈ absorbed, entry.1 ≠ id) : absorbedBy absorbed id = [] := by
  apply filter_eq_nil_iff.mpr
  intro entry listed
  simpa using unknown entry listed

theorem step_accounts (accounts : Accounts s) (taken : step s a = some t) : Accounts t := by
  have moves := step_moves taken
  have ids := moves.ids
  have absorbing := absorption_known (a := a) accounts
  have more : ∀ id ∈ s.ids, id ∈ t.ids := by
    intro id listed
    rw [ids]
    exact mem_append_left _ listed
  have opened' : ∀ opening' ∈ (opening s a).toList, opening'.id ∉ s.ids := by
    intro opening' listed
    exact moves.fresh opening' (Option.mem_toList.mp listed)
  refine ⟨?_, ?_, ?_, ?_⟩
  · rw [ids]
    apply nodup_append.mpr
    refine ⟨accounts.distinct, ?_, ?_⟩
    · cases opening s a with
      | none => exact nodup_nil
      | some opening' => exact nodup_singleton _
    · rintro id listed other fresh rfl
      obtain ⟨opening', present, rfl⟩ := mem_map.mp fresh
      exact opened' opening' present listed
  · intro row listed
    rw [moves.rows] at listed
    rw [moves.absorbed, absorbedBy_append, absorbedBy_append]
    rcases mem_append.mp listed with changed | created
    · obtain ⟨before, present, rfl⟩ := mem_map.mp changed
      obtain ⟨same, count⟩ := change_same s a before
      have others : absorbedBy ((opening s a).toList.map fun opening =>
          (opening.id, opening.event.eventId)) before.id = [] := by
        apply absorbedBy_unknown
        intro entry created equal
        obtain ⟨opening', present', rfl⟩ := mem_map.mp created
        apply opened' opening' present'
        have listed := mem_map_of_mem (f := AlarmInstance.id) present
        rw [← equal] at listed
        exact listed
      rw [count, same.id, others, accounts.counted before present]
      simp
    · obtain ⟨opening', present, rfl⟩ := mem_map.mp created
      have before : absorbedBy s.absorbed opening'.alarm.id = [] := by
        apply absorbedBy_unknown
        intro entry known equal
        apply opened' opening' present
        have id := accounts.known entry known
        rw [equal] at id
        exact id
      have now' : absorbedBy (absorption s a).toList opening'.alarm.id = [] := by
        apply absorbedBy_unknown
        intro entry known equal
        apply opened' opening' present
        have id := absorbing entry known
        rw [equal] at id
        exact id
      rw [before, now']
      rw [Option.mem_toList] at present
      rw [Option.mem_def.mp present]
      simp [absorbedBy, Opening.alarm, opened]
  · intro entry listed
    rw [moves.absorbed] at listed
    rcases mem_append.mp listed with before | created
    · rcases mem_append.mp before with known | absorbed
      · exact more _ (accounts.known entry known)
      · exact more _ (absorbing entry absorbed)
    · obtain ⟨opening', present, rfl⟩ := mem_map.mp created
      rw [ids]
      exact mem_append_right _ (mem_map_of_mem present)
  · intro operation listed
    have based : operation.Based s.ids := by
      rcases moves.pending operation listed with before | based
      · exact accounts.based operation before
      · exact based
    cases operation with
    | absorb event rule existing => exact ⟨more _ based.1, based.2⟩
    | act user action existing => exact more _ based
    | _ => exact trivial

end DracVms.Alarms
