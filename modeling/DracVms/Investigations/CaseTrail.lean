import DracVms.Jobs.ExportPackages
import DracVms.Library.Runs

namespace DracVms.Investigations

open List KeyedList

open Json (Text field setField)
open Database
open AccessControl (isPrivileged)
open Alarms (text spread trimmed)
open Protection (legalHold)
open ExportPackages (Signing PackageOnly)

structure Call where
  now : Instant
  user : User
  operation : Operation

/-- The tables and the queue. The calls that were answered, the latest of them first, are what the
tables do not tell. -/
structure System where
  store : Store
  calls : List Call

def System.empty : System := ⟨⟨[], [], [], 0⟩, []⟩

def System.items (s : System) : List Item := s.store.items

inductive Step where
  | call (call : Call)
  /-- The worker runs a job, which may have run before. -/
  | process (index : ℕ) (now : Instant) (signing : Signing) (written : ℕ)
  | retryAllPendingSignatures (now : Instant) (signing : Text → Signing) (written : ℕ)

section System

variable (uuids : Uuids)

def step (s : System) : Step → Option System
  | .call call =>
    match perform uuids s.store call.now call.user call.operation with
    | .ok outcome => some ⟨s.store.commit uuids call.now outcome, call :: s.calls⟩
    | .error _ => some s
  | .process index now signing written =>
    s.store.jobs[index]?.map fun job =>
      { s with store := ExportPackages.process now signing written s.store job }
  | .retryAllPendingSignatures now signing written =>
    some { s with store := ExportPackages.retryAllPendingSignatures now signing written s.store }

end System

/-! What the trail of a case promises. -/

/-- The hold that a call asks for. -/
def Call.hold (investigationId : Text) (call : Call) : Option LegalHold :=
  match call.operation with
  | .setLegalHold id dto => if id = investigationId then some dto.payload else none
  | _ => none

def lastHold (calls : List Call) (investigationId : Text) : Option LegalHold :=
  calls.findSome? (Call.hold investigationId)

def Call.reviews (requestId : Text) (call : Call) : Bool :=
  match call.operation with
  | .reviewExportRequest _ id _ _ => id = requestId
  | _ => false

def Call.approves (call : Call) : Prop :=
  match call.operation with
  | .reviewExportRequest _ _ decision _ =>
    isPrivileged call.user.toAuthUser = true ∧ decision = approved
  | _ => False

/-- The last word on the request is the approval of an administrator. -/
def ApprovedByAdmin (calls : List Call) (requestId : Text) : Prop :=
  ∃ review, calls.find? (Call.reviews requestId) = some review ∧ review.approves

/-- The package comes from a call for a request that an administrator had approved by then. -/
def ExportApproved (calls : List Call) (item : Item) : Prop :=
  ∃ later earlier now user requestId reason,
    calls = later ++
      ⟨now, user, .executeExportRequest item.investigationId requestId reason⟩ :: earlier ∧
    item.eventId = some requestId ∧ ApprovedByAdmin earlier requestId

def HoldsKept (s : System) : Prop :=
  ∀ investigationId hold, lastHold s.calls investigationId = some hold → hold.enabled = true →
    s.store.getActiveLegalHold investigationId = hold ∧
      ∀ id ∈ hold.itemIds, ∃ item ∈ s.items, item.id = id

/-- The operations that are there to change an item of this type. -/
def DedicatedTo (item : Item) : Step → Prop
  | .call ⟨_, _, .reviewExportRequest _ requestId _ _⟩ =>
    item.type = exportRequest ∧ item.id = requestId
  | .call _ => False
  | .process _ _ _ _ => item.type = exportPackage
  | .retryAllPendingSignatures _ _ _ => item.type = exportPackage

/-- What holds all along the run of the steps. -/
structure CaseTrailKept (uuids : Uuids) (steps : List Step) : Prop where
  /-- An item of the server stays, and only the operations dedicated to it change its document. -/
  trail : ∀ n m s t, n ≤ m → Runs.run (step uuids) .empty (steps.take n) = some s →
    Runs.run (step uuids) .empty (steps.take m) = some t →
    ∀ item ∈ s.items, item.type ∈ serverOwnedTypes →
      ∃ metadata, { item with metadata := metadata } ∈ t.items ∧
        ((∀ a ∈ (steps.take m).drop n, ¬DedicatedTo item a) → metadata = item.metadata)
  held : ∀ n s, Runs.run (step uuids) .empty (steps.take n) = some s → HoldsKept s
  approved : ∀ n s, Runs.run (step uuids) .empty (steps.take n) = some s →
    ∀ item ∈ s.items, item.type = exportPackage → ExportApproved s.calls item

/-! The condition on the steps. -/

/-- Another case than this one holds the item. -/
def HeldElsewhere (s : System) (investigationId itemId : Text) : Prop :=
  ∃ other hold, other ≠ investigationId ∧ lastHold s.calls other = some hold ∧
    hold.enabled = true ∧ itemId ∈ hold.itemIds

def Reaches (s : System) (user : User) (investigationId : Text) : Prop :=
  (s.store.assertAccessible user investigationId).isOk = true

/-- An item of the server is neither removed nor given other notes, no item is removed that another
case holds, and a hold lists items that are there and is later than the holds before it. -/
def OrderlyCall (s : System) (call : Call) : Prop :=
  match call.operation with
  | .updateItem investigationId itemId (some notes) => Reaches s call.user investigationId →
      ∀ item ∈ s.items, item.id = itemId → item.investigationId = investigationId →
        item.type ∈ serverOwnedTypes → item.notes = trimmed (some notes)
  | .removeItem investigationId itemId => Reaches s call.user investigationId →
      isHeld s.store investigationId itemId = false →
        ∀ item ∈ s.items, item.id = itemId → item.investigationId = investigationId →
          item.type ∉ serverOwnedTypes ∧ ¬HeldElsewhere s investigationId itemId
  | .setLegalHold investigationId dto => Reaches s call.user investigationId →
      dto.payload.enabled = true →
        (∀ id ∈ dto.payload.itemIds, ∃ item ∈ s.items, item.id = id) ∧
          ∀ item ∈ s.items, item.investigationId = investigationId → item.type = legalHold →
            item.createdAt < call.now
  | _ => True

def Orderly (s : System) : Step → Prop
  | .call call => OrderlyCall s call
  | _ => True

/-! What a step does to the items. -/

/-- What becomes of an item in a step. -/
inductive Fate (s : System) (item : Item) : Step → Option Item → Prop
  | kept (a : Step) : Fate s item a (some item)
  | removed (now : Instant) (user : User)
      (reached : Reaches s user item.investigationId)
      (free : isHeld s.store item.investigationId item.id = false) :
      Fate s item (.call ⟨now, user, .removeItem item.investigationId item.id⟩) none
  | noted (now : Instant) (user : User) (notes : Text)
      (reached : Reaches s user item.investigationId) :
      Fate s item (.call ⟨now, user, .updateItem item.investigationId item.id (some notes)⟩)
        (some { item with notes := trimmed (some notes) })
  | reviewed (now : Instant) (user : User) (decision : Text) (reason : Option Text)
      (metadata : Metadata) (request : item.type = exportRequest)
      (privileged : isPrivileged user.toAuthUser = true)
      (stated : hasStatus approved (some metadata) = true → decision = approved) :
      Fate s item
        (.call ⟨now, user, .reviewExportRequest item.investigationId item.id decision reason⟩)
        (some { item with metadata := some metadata })
  | processed (a : Step) (metadata : Option Metadata) (package : item.type = exportPackage)
      (work : DedicatedTo item a) : Fate s item a (some { item with metadata := metadata })

/-- Where a new item comes from. -/
inductive Origin (s : System) : Step → Item → Prop
  | free (a : Step) (row : Item) (client : row.type ∉ serverOwnedTypes) : Origin s a row
  | trail (a : Step) (row : Item) (noted : row.type ∈ [activityType, lifecycleType, caseMeta]) :
      Origin s a row
  | request (a : Step) (row : Item) (type : row.type = exportRequest)
      (pending : hasStatus approved row.metadata = false) : Origin s a row
  | package (now : Instant) (user : User) (requestId : Text) (reason : Option Text) (row : Item)
      (type : row.type = exportPackage) (named : row.eventId = some requestId) (request : Item)
      (listed : request ∈ s.items) (same : request.id = requestId)
      (requested : request.type = exportRequest)
      (stated : hasStatus approved request.metadata = true) :
      Origin s (.call ⟨now, user, .executeExportRequest row.investigationId requestId reason⟩) row
  | hold (now : Instant) (user : User) (investigationId : Text) (dto : LegalHoldBody) (id : Text) :
      Origin s (.call ⟨now, user, .setLegalHold investigationId dto⟩)
        ((holdDraft now user investigationId dto.payload).row id now)

/-- What a step does, said once. -/
structure Moves (uuids : Uuids) (s : System) (a : Step) (t : System) : Prop where
  stays : ∀ item ∈ s.items, ∃ after, Fate s item a after ∧ ∀ kept ∈ after, kept ∈ t.items
  comes : ∀ row ∈ t.items, (∃ item ∈ s.items, Fate s item a (some row)) ∨
    Origin s a row ∧ ∃ k, s.store.drawn ≤ k ∧ row.id = uuids.draw k
  distinct : (t.items.map Item.id).Nodup
  known : ∀ item ∈ t.items, ∃ k, k < t.store.drawn ∧ item.id = uuids.draw k
  drawn : s.store.drawn ≤ t.store.drawn
  jobs : ∀ job ∈ t.store.jobs, job ∈ s.store.jobs ∨
    ∃ item ∈ t.items, item.id = job.packageItemId ∧ item.type = exportPackage
  calls : (t.calls = s.calls ∧ ∀ call, a ≠ .call call) ∨
    ∃ call, a = .call call ∧ t.calls = call :: s.calls ∧
      (∀ investigationId hold, call.hold investigationId = some hold →
        Reaches s call.user investigationId ∧
          ∃ id, (holdDraft call.now call.user investigationId hold).row id call.now ∈ t.items) ∧
      ∀ row ∈ t.items, call.reviews row.id = true → hasStatus approved row.metadata = true →
        call.approves

/-! The operations. -/

theorem bind_ok {α β : Type} {x : Except Failure α} {next : α → Except Failure β} {result : β}
    (bound : (x >>= next) = .ok result) : ∃ value, x = .ok value ∧ next value = .ok result := by
  cases x with
  | error failure => cases bound
  | ok value => exact ⟨value, rfl, bound⟩

theorem found_ok {α : Type} {failure : Failure} {value : Option α} {result : α}
    (answered : found failure value = .ok result) : value = some result := by
  cases value with
  | none => cases answered
  | some given =>
    cases answered
    rfl

section Operations

variable {uuids : Uuids} {s : System} {call : Call}

/-- What an operation that was answered has to write. -/
structure Performs (uuids : Uuids) (s : System) (call : Call) (outcome : Outcome) : Prop where
  edit : ∀ item ∈ s.items, Fate s item (.call call) (outcome.edit.row item)
  drafts : ∀ draft, .createItem draft ∈ outcome.writes →
    ∀ id, Origin s (.call call) (draft.row id call.now)
  jobs : ∀ job, .addJob job ∈ outcome.writes →
    outcome.edit = .nothing ∧
      ((∃ item ∈ s.items, item.id = job.packageItemId ∧ item.type = exportPackage) ∨
        ∃ draft rest, outcome.writes = .createItem draft :: rest ∧ draft.type = exportPackage ∧
          job.packageItemId = uuids.draw s.store.drawn)
  hold : ∀ investigationId hold, call.hold investigationId = some hold →
    Reaches s call.user investigationId ∧
      .createItem (holdDraft call.now call.user investigationId hold) ∈ outcome.writes
  review : ∀ requestId, call.reviews requestId = true → ∃ item ∈ s.items, item.id = requestId ∧
    ∃ after, outcome.edit.row item = some after ∧
      (hasStatus approved after.metadata = true → call.approves)

/-- An item that comes from nowhere else than this call. -/
def Sourced (s : System) (call : Call) : Write → Prop
  | .createItem draft => ∀ id, Origin s (.call call) (draft.row id call.now)
  | .addJob _ => False
  | _ => True

theorem activity_sourced (now : Instant) (user : User) (investigationId label : Text)
    (notes : Option Text) : Sourced s call (addActivity now user investigationId label notes) :=
  fun _ => Origin.trail _ _ mem_cons_self

variable {outcome : Outcome}

theorem Performs.plain (edit : ∀ item ∈ s.items, Fate s item (.call call) (outcome.edit.row item))
    (sourced : ∀ write ∈ outcome.writes, Sourced s call write)
    (calm : ∀ id, call.hold id = none ∧ call.reviews id = false) :
    Performs uuids s call outcome := by
  refine ⟨edit, fun draft listed => sourced _ listed, ?_, ?_, ?_⟩
  · intro job listed
    exact (sourced _ listed).elim
  · intro investigationId hold asked
    rw [(calm investigationId).1] at asked
    cases asked
  · intro requestId asked
    rw [(calm requestId).2] at asked
    cases asked

theorem sourced_pair {first second : Write} (one : Sourced s call first)
    (two : Sourced s call second) : ∀ write ∈ [first, second], Sourced s call write :=
  forall_mem_cons.mpr ⟨one, forall_mem_cons.mpr ⟨two, by simp⟩⟩

variable {now : Instant} {user : User}

theorem create_performs {title : Text} {status summary : Option Text} :
    Performs uuids s ⟨now, user, .create title status summary⟩
      (create uuids s.store now user title status summary) := by
  apply Performs.plain (fun item _ => Fate.kept _) _ (fun _ => ⟨rfl, rfl⟩)
  exact sourced_pair trivial (activity_sourced _ _ _ _ _)

variable {investigationId : Text}

theorem update_performs {title status : Option Text}
    (answered : update s.store now user investigationId title status = .ok outcome) :
    Performs uuids s ⟨now, user, .update investigationId title status⟩ outcome := by
  obtain ⟨_, -, written⟩ := bind_ok answered
  cases written
  apply Performs.plain (fun item _ => Fate.kept _) _ (fun _ => ⟨rfl, rfl⟩)
  exact sourced_pair trivial (activity_sourced _ _ _ _ _)

theorem addItem_performs {dto : CreateInvestigationItemDto}
    (answered : addItem s.store now user investigationId dto = .ok outcome) :
    Performs uuids s ⟨now, user, .addItem investigationId dto⟩ outcome := by
  obtain ⟨_, -, written⟩ := bind_ok answered
  cases written
  apply Performs.plain (fun item _ => Fate.kept _) _ (fun _ => ⟨rfl, rfl⟩)
  apply sourced_pair
  · exact fun _ => Origin.free _ _ dto.typeFree
  · exact activity_sourced _ _ _ _ _

theorem addBookmark_performs {dto : CreateBookmarkDto}
    (answered : addBookmark s.store now user investigationId dto = .ok outcome) :
    Performs uuids s ⟨now, user, .addBookmark investigationId dto⟩ outcome := by
  have client : "bookmark".toList ∉ serverOwnedTypes := by decide
  obtain ⟨_, -, written⟩ := bind_ok answered
  cases written
  apply Performs.plain (fun item _ => Fate.kept _) _ (fun _ => ⟨rfl, rfl⟩)
  apply sourced_pair
  · exact fun _ => Origin.free _ _ client
  · exact activity_sourced _ _ _ _ _

theorem addNote_performs {investigationId note : Text}
    (answered : addNote s.store now user investigationId note = .ok outcome) :
    Performs uuids s ⟨now, user, .addNote investigationId note⟩ outcome := by
  have client : "note".toList ∉ serverOwnedTypes := by decide
  obtain ⟨_, -, written⟩ := bind_ok answered
  obtain ⟨clean, -, written⟩ := bind_ok written
  cases written
  apply Performs.plain (fun item _ => Fate.kept _) _ (fun _ => ⟨rfl, rfl⟩)
  apply sourced_pair
  · exact fun _ => Origin.free _ _ client
  · exact activity_sourced _ _ _ _ _

theorem upsertCaseMeta_performs {dto : CaseMetaDto}
    (answered : upsertCaseMeta s.store now user investigationId dto = .ok outcome) :
    Performs uuids s ⟨now, user, .upsertCaseMeta investigationId dto⟩ outcome := by
  have listed : caseMeta ∈ [activityType, lifecycleType, caseMeta] := by decide
  obtain ⟨_, -, written⟩ := bind_ok answered
  cases written
  apply Performs.plain (fun item _ => Fate.kept _) _ (fun _ => ⟨rfl, rfl⟩)
  apply sourced_pair
  · exact fun _ => Origin.trail _ _ listed
  · exact activity_sourced _ _ _ _ _

theorem transitionLifecycle_performs {investigationId status : Text} {note : Option Text}
    (answered : transitionLifecycle s.store now user investigationId status note = .ok outcome) :
    Performs uuids s ⟨now, user, .transitionLifecycle investigationId status note⟩ outcome := by
  have listed : lifecycleType ∈ [activityType, lifecycleType, caseMeta] := by decide
  unfold transitionLifecycle at answered
  split at answered
  · cases answered
  · obtain ⟨current, -, written⟩ := bind_ok answered
    cases written
    apply Performs.plain (fun item _ => Fate.kept _) _ (fun _ => ⟨rfl, rfl⟩)
    intro write member
    rcases mem_append.mp member with first | last
    · rcases mem_cons.mp first with rfl | second
      · exact trivial
      · rw [mem_singleton.mp second]
        exact fun _ => Origin.trail _ _ listed
    · split at last
      · rw [mem_singleton.mp last]
        exact activity_sourced _ _ _ _ _
      · cases last

theorem createExportRequest_performs {dto : CreateExportRequestDto}
    (answered : createExportRequest s.store now user investigationId dto = .ok outcome) :
    Performs uuids s ⟨now, user, .createExportRequest investigationId dto⟩ outcome := by
  obtain ⟨_, -, written⟩ := bind_ok answered
  obtain ⟨reason, -, written⟩ := bind_ok written
  cases written
  apply Performs.plain (fun item _ => Fate.kept _) _ (fun _ => ⟨rfl, rfl⟩)
  apply sourced_pair
  · exact fun _ => Origin.request _ _ rfl rfl
  · exact activity_sourced _ _ _ _ _

variable {investigationId itemId : Text}

theorem findItem_ok {existing : Item}
    (located : s.store.findItem investigationId itemId = some existing) :
    existing ∈ s.items ∧ existing.id = itemId ∧ existing.investigationId = investigationId := by
  have named := List.find?_some located
  simp only [Bool.and_eq_true, decide_eq_true_eq] at named
  exact ⟨List.mem_of_find?_eq_some located, named⟩

theorem findRequest_ok {investigationId requestId : Text} {existing : Item}
    (located : s.store.findRequest investigationId requestId = some existing) :
    existing ∈ s.items ∧ existing.id = requestId ∧ existing.investigationId = investigationId ∧
      existing.type = exportRequest := by
  have named := List.find?_some located
  simp only [Bool.and_eq_true, decide_eq_true_eq] at named
  exact ⟨List.mem_of_find?_eq_some located, named.1.1, named.1.2, named.2⟩

theorem reaches_of_ok {investigation : Investigation}
    (accessible : s.store.assertAccessible user investigationId = .ok investigation) :
    Reaches s user investigationId := by
  unfold Reaches
  rw [accessible]
  rfl

theorem updateItem_performs (distinct : (s.items.map Item.id).Nodup) {notes : Option Text}
    (answered : updateItem s.store now user investigationId itemId notes = .ok outcome) :
    Performs uuids s ⟨now, user, .updateItem investigationId itemId notes⟩ outcome := by
  obtain ⟨_, accessible, written⟩ := bind_ok answered
  obtain ⟨existing, located, written⟩ := bind_ok written
  obtain ⟨present, rfl, rfl⟩ := findItem_ok (found_ok located)
  have reached := reaches_of_ok accessible
  cases written
  apply Performs.plain _ _ (fun _ => ⟨rfl, rfl⟩)
  · intro item listed
    cases notes with
    | none => exact Fate.kept _
    | some notes =>
      by_cases here : item.id = existing.id
      · rw [← eq_of_key distinct listed present here] at reached ⊢
        simp only [Edit.row, if_true]
        exact Fate.noted now user notes reached
      · simp only [Edit.row, if_neg here]
        exact Fate.kept _
  · exact forall_mem_singleton.mpr (activity_sourced _ _ _ _ _)

theorem removeItem_performs (distinct : (s.items.map Item.id).Nodup)
    (answered : removeItem s.store now user investigationId itemId = .ok outcome) :
    Performs uuids s ⟨now, user, .removeItem investigationId itemId⟩ outcome := by
  obtain ⟨_, accessible, written⟩ := bind_ok answered
  split at written
  · cases written
  · rename_i free
    obtain ⟨existing, located, written⟩ := bind_ok written
    obtain ⟨present, rfl, rfl⟩ := findItem_ok (found_ok located)
    have reached := reaches_of_ok accessible
    cases written
    apply Performs.plain _ _ (fun _ => ⟨rfl, rfl⟩)
    · intro item listed
      by_cases here : item.id = existing.id
      · rw [← eq_of_key distinct listed present here] at reached free ⊢
        simp only [Edit.row, if_true]
        exact Fate.removed now user reached (Bool.eq_false_iff.mpr free)
      · simp only [Edit.row, if_neg here]
        exact Fate.kept _
    · exact forall_mem_singleton.mpr (activity_sourced _ _ _ _ _)

theorem setLegalHold_performs {dto : LegalHoldBody}
    (answered : setLegalHold s.store now user investigationId dto = .ok outcome) :
    Performs uuids s ⟨now, user, .setLegalHold investigationId dto⟩ outcome := by
  obtain ⟨_, accessible, written⟩ := bind_ok answered
  cases written
  refine ⟨fun item _ => Fate.kept _, ?_, ?_, ?_, fun _ asked => by cases asked⟩
  · intro draft listed id
    rcases mem_cons.mp listed with first | last
    · cases first
      exact Origin.hold now user investigationId dto id
    · cases mem_singleton.mp last
      exact activity_sourced (s := s) _ _ _ _ _ id
  · intro job listed
    rcases mem_cons.mp listed with first | last
    · cases first
    · cases mem_singleton.mp last
  · intro asked hold same
    simp only [Call.hold] at same
    split at same
    · rename_i here
      subst here
      cases same
      exact ⟨reaches_of_ok accessible, mem_cons_self⟩
    · cases same

theorem merged_status (metadata : Option Metadata) (now : Instant) (user : User)
    (decision reason : Text) :
    hasStatus approved (some (merged metadata (reviewFields now user decision reason))) =
      decide (decision = approved) := by
  have others : statusKey ∉ ["decisionReason".toList, "reviewedByUserId".toList,
    "reviewedByUserName".toList, "reviewedAt".toList] := by decide
  have written : field ((reviewFields now user decision reason).foldl setField (spread metadata))
      statusKey = some (text decision) := by
    rw [reviewFields, foldl_cons, Json.field_foldl_setField _ _ _ others,
      Json.field_setField, if_pos rfl]
  show isText approved (field ((reviewFields now user decision reason).foldl setField
    (spread metadata)) statusKey) = _
  rw [written]
  exact decide_eq_decide.mpr Iff.rfl

theorem reviewExportRequest_performs (distinct : (s.items.map Item.id).Nodup)
    {investigationId requestId decision : Text} {reason : Option Text}
    (answered : reviewExportRequest s.store now user investigationId requestId decision reason =
      .ok outcome) :
    Performs uuids s
      ⟨now, user, .reviewExportRequest investigationId requestId decision reason⟩ outcome := by
  obtain ⟨_, -, written⟩ := bind_ok answered
  split at written
  · cases written
  · rename_i privileged
    obtain ⟨reqItem, located, written⟩ := bind_ok written
    obtain ⟨present, rfl, rfl, type⟩ := findRequest_ok (found_ok located)
    obtain ⟨given, -, written⟩ := bind_ok written
    cases written
    have admin : isPrivileged user.toAuthUser = true := by simpa using privileged
    have states : hasStatus approved
        (some (merged reqItem.metadata (reviewFields now user decision given))) = true →
          decision = approved := by
      intro stated
      rw [merged_status] at stated
      exact of_decide_eq_true stated
    have sourced : Sourced s
        ⟨now, user, .reviewExportRequest reqItem.investigationId reqItem.id decision reason⟩
        (addActivity now user reqItem.investigationId (reviewLabel decision) (some given)) :=
      activity_sourced _ _ _ _ _
    refine ⟨?_, ?_, ?_, (fun _ _ asked => by cases asked), ?_⟩
    · intro item listed
      by_cases here : item.id = reqItem.id
      · cases eq_of_key distinct listed present here
        simp only [Edit.row, if_true]
        exact Fate.reviewed now user decision reason _ type admin states
      · simp only [Edit.row, if_neg here]
        exact Fate.kept _
    · intro draft listed id
      cases mem_singleton.mp listed
      exact sourced id
    · intro job listed
      cases mem_singleton.mp listed
    · intro requestId asked
      refine ⟨reqItem, present, of_decide_eq_true asked, { reqItem with
        metadata := some (merged reqItem.metadata (reviewFields now user decision given)) },
        ?_, ?_⟩
      · simp only [Edit.row, if_true]
      · exact fun stated => ⟨admin, states stated⟩

theorem executeExportRequest_performs {investigationId requestId : Text} {reason : Option Text}
    (answered : executeExportRequest uuids s.store now user investigationId requestId reason =
      .ok outcome) :
    Performs uuids s ⟨now, user, .executeExportRequest investigationId requestId reason⟩
      outcome := by
  obtain ⟨_, -, written⟩ := bind_ok answered
  obtain ⟨given, -, written⟩ := bind_ok written
  obtain ⟨reqItem, located, written⟩ := bind_ok written
  obtain ⟨present, rfl, -, type⟩ := findRequest_ok (found_ok located)
  split at written
  · rename_i stated
    cases written
    refine ⟨fun item _ => Fate.kept _, ?_, ?_, (fun _ _ asked => by cases asked),
    fun _ asked => by cases asked⟩
    · intro draft listed id
      rcases mem_cons.mp listed with first | later
      · cases first
        exact Origin.package now user reqItem.id reason
          ((packageDraft now user investigationId reqItem.id given).row id now) rfl rfl reqItem
          present rfl type stated
      · rcases mem_cons.mp later with second | last
        · cases second
        · cases mem_singleton.mp last
          exact activity_sourced (s := s) _ _ _ _ _ id
    · intro job listed
      rcases mem_cons.mp listed with first | later
      · cases first
      · rcases mem_cons.mp later with second | last
        · cases second
          exact ⟨rfl, Or.inr ⟨_, _, rfl, rfl, rfl⟩⟩
        · cases mem_singleton.mp last
  · cases written

theorem enqueueRetryPendingSignatures_performs
    (answered : enqueueRetryPendingSignatures s.store now user investigationId = .ok outcome) :
    Performs uuids s ⟨now, user, .enqueueRetryPendingSignatures investigationId⟩ outcome := by
  obtain ⟨_, -, written⟩ := bind_ok answered
  cases written
  refine ⟨fun item _ => Fate.kept _, ?_, ?_, (fun _ _ asked => by cases asked),
    fun _ asked => by cases asked⟩
  · intro draft listed id
    rcases mem_append.mp listed with queued | last
    · obtain ⟨item, -, other⟩ := mem_map.mp queued
      cases other
    · cases mem_singleton.mp last
      exact activity_sourced (s := s) _ _ _ _ _ id
  · intro job listed
    rcases mem_append.mp listed with queued | last
    · obtain ⟨item, pending, same⟩ := mem_map.mp queued
      cases same
      have taken := mem_of_mem_take (mem_of_mem_filter pending)
      rw [mem_insertionSort] at taken
      obtain ⟨present, package⟩ := mem_filter.mp taken
      simp only [Bool.and_eq_true, decide_eq_true_eq] at package
      exact ⟨rfl, Or.inl ⟨item, present, rfl, package.2⟩⟩
    · cases mem_singleton.mp last

theorem perform_performs (distinct : (s.items.map Item.id).Nodup)
    (answered : perform uuids s.store call.now call.user call.operation = .ok outcome) :
    Performs uuids s call outcome := by
  obtain ⟨now, user, operation⟩ := call
  cases operation with
  | create title status summary =>
    cases answered
    exact create_performs
  | update investigationId title status => exact update_performs answered
  | addItem investigationId dto => exact addItem_performs answered
  | updateItem investigationId itemId notes => exact updateItem_performs distinct answered
  | removeItem investigationId itemId => exact removeItem_performs distinct answered
  | addBookmark investigationId dto => exact addBookmark_performs answered
  | transitionLifecycle investigationId status note => exact transitionLifecycle_performs answered
  | addNote investigationId note => exact addNote_performs answered
  | setLegalHold investigationId dto => exact setLegalHold_performs answered
  | createExportRequest investigationId dto => exact createExportRequest_performs answered
  | reviewExportRequest investigationId requestId decision reason =>
    exact reviewExportRequest_performs distinct answered
  | executeExportRequest investigationId requestId reason =>
    exact executeExportRequest_performs answered
  | enqueueRetryPendingSignatures investigationId =>
    exact enqueueRetryPendingSignatures_performs answered
  | upsertCaseMeta investigationId dto => exact upsertCaseMeta_performs answered

end Operations

/-! The rows that the writes create. -/

section Created

variable (uuids : Uuids) (now : Instant)

def created : ℕ → List Write → List Item
  | _, [] => []
  | k, .createItem draft :: rest => draft.row (uuids.draw k) now :: created (k + 1) rest
  | k, .createInvestigation _ _ _ :: rest => created (k + 1) rest
  | k, .updateInvestigation _ _ _ :: rest => created k rest
  | k, .addJob _ :: rest => created k rest

def added : List Write → List ExportJob
  | [] => []
  | .addJob job :: rest => job :: added rest
  | _ :: rest => added rest

variable {writes : List Write}

theorem mem_added {job : ExportJob} (listed : job ∈ added writes) : .addJob job ∈ writes := by
  induction writes with
  | nil => cases listed
  | cons write rest ih =>
    cases write with
    | addJob first =>
      rcases mem_cons.mp listed with rfl | later
      · exact mem_cons_self
      · exact mem_cons_of_mem _ (ih later)
    | _ => exact mem_cons_of_mem _ (ih listed)

/-- The draws of the rows are the next ones, each used once. -/
structure Follows (first : ℕ) (rows : List Item) (last : ℕ) : Prop where
  later : first ≤ last
  drawn : ∀ row ∈ rows, ∃ k, first ≤ k ∧ k < last ∧ row.id = uuids.draw k
  distinct : (rows.map Item.id).Nodup

theorem writes_spec (writes : List Write) (store : Store) :
    (writes.foldl (Store.write uuids now) store).items =
        store.items ++ created uuids now store.drawn writes ∧
      (writes.foldl (Store.write uuids now) store).jobs = store.jobs ++ added writes ∧
      Follows uuids store.drawn (created uuids now store.drawn writes)
        (writes.foldl (Store.write uuids now) store).drawn := by
  induction writes generalizing store with
  | nil =>
    refine ⟨(append_nil _).symm, (append_nil _).symm, le_refl _, ?_, nodup_nil⟩
    intro row listed
    cases listed
  | cons write rest ih =>
    obtain ⟨items, jobs, follows⟩ := ih (store.write uuids now write)
    rw [foldl_cons]
    cases write with
    | createItem draft =>
      refine ⟨?_, jobs, ?_⟩
      · rw [items, created]
        exact append_assoc ..
      · have later : store.drawn + 1 ≤ _ := follows.later
        refine ⟨by omega, ?_, ?_⟩
        · intro row listed
          rcases mem_cons.mp listed with rfl | others
          · exact ⟨store.drawn, le_refl _, by omega, rfl⟩
          · obtain ⟨k, above, below, named⟩ := follows.drawn row others
            have above' : store.drawn + 1 ≤ k := above
            exact ⟨k, by omega, below, named⟩
        · refine nodup_cons.mpr ⟨?_, follows.distinct⟩
          intro listed
          obtain ⟨row, present, same⟩ := mem_map.mp listed
          obtain ⟨k, above, -, named⟩ := follows.drawn row present
          have above' : store.drawn + 1 ≤ k := above
          have equal := uuids.distinct (named.symm.trans same)
          omega
    | createInvestigation title status createdByUserId =>
      have later : store.drawn + 1 ≤ _ := follows.later
      refine ⟨items, jobs, by omega, ?_, follows.distinct⟩
      intro row listed
      obtain ⟨k, above, below, named⟩ := follows.drawn row listed
      have above' : store.drawn + 1 ≤ k := above
      exact ⟨k, by omega, below, named⟩
    | updateInvestigation id title status => exact ⟨items, jobs, follows⟩
    | addJob job =>
      refine ⟨items, ?_, follows⟩
      rw [jobs]
      exact append_assoc ..

theorem mem_created {row : Item} {k : ℕ} (listed : row ∈ created uuids now k writes) :
    ∃ draft id, .createItem draft ∈ writes ∧ row = draft.row id now := by
  induction writes generalizing k with
  | nil => cases listed
  | cons write rest ih =>
    cases write with
    | createItem draft =>
      rcases mem_cons.mp listed with rfl | later
      · exact ⟨draft, _, mem_cons_self, rfl⟩
      · obtain ⟨other, id, present, same⟩ := ih later
        exact ⟨other, id, mem_cons_of_mem _ present, same⟩
    | createInvestigation title status createdByUserId | updateInvestigation id title status
    | addJob job =>
      obtain ⟨other, id, present, same⟩ := ih listed
      exact ⟨other, id, mem_cons_of_mem _ present, same⟩

theorem created_mem {draft : Draft} (listed : .createItem draft ∈ writes) (k : ℕ) :
    ∃ id, draft.row id now ∈ created uuids now k writes := by
  induction writes generalizing k with
  | nil => cases listed
  | cons write rest ih =>
    rcases mem_cons.mp listed with rfl | later
    · exact ⟨_, mem_cons_self⟩
    · cases write with
      | createItem first =>
        obtain ⟨id, present⟩ := ih later (k + 1)
        exact ⟨id, mem_cons_of_mem _ present⟩
      | createInvestigation title status createdByUserId => exact ih later (k + 1)
      | updateInvestigation id title status | addJob job => exact ih later k

end Created

/-! What is known of the ids in every state. -/

structure Identified (uuids : Uuids) (s : System) : Prop where
  distinct : (s.items.map Item.id).Nodup
  known : ∀ item ∈ s.items, ∃ k, k < s.store.drawn ∧ item.id = uuids.draw k
  jobs : ∀ job ∈ s.store.jobs, PackageOnly s.items job.packageItemId ∧
    ∃ k, k < s.store.drawn ∧ job.packageItemId = uuids.draw k

theorem edit_id {edit : Edit} {item after : Item} (kept : edit.row item = some after) :
    after.id = item.id := by
  cases edit with
  | nothing =>
    cases kept
    rfl
  | delete id =>
    simp only [Edit.row] at kept
    split at kept
    · cases kept
    · cases kept
      rfl
  | setNotes id notes | setMetadata id metadata =>
    cases kept
    split <;> rfl

theorem edit_ids (edit : Edit) (items : List Item) :
    ((items.filterMap edit.row).map Item.id).Sublist (items.map Item.id) := by
  induction items with
  | nil => exact List.Sublist.slnil
  | cons item rest ih =>
    rw [filterMap_cons]
    split
    · exact ih.cons _
    · rename_i after kept
      rw [map_cons, map_cons, edit_id kept]
      exact ih.cons_cons _

section Moving

variable {uuids : Uuids} {s : System}

theorem commit_moves (identified : Identified uuids s) {call : Call} {outcome : Outcome}
    (performs : Performs uuids s call outcome) :
    Moves uuids s (.call call) ⟨s.store.commit uuids call.now outcome, call :: s.calls⟩ := by
  obtain ⟨items, jobs, follows⟩ :=
    writes_spec uuids call.now outcome.writes (s.store.edit outcome.edit)
  have after : (s.store.commit uuids call.now outcome).items =
      s.items.filterMap outcome.edit.row ++
        created uuids call.now s.store.drawn outcome.writes := items
  have drawn : s.store.drawn ≤ (s.store.commit uuids call.now outcome).drawn := follows.later
  have fresh : ∀ item ∈ s.items, ∀ k, s.store.drawn ≤ k → item.id ≠ uuids.draw k := by
    intro item listed k above same
    obtain ⟨j, below, named⟩ := identified.known item listed
    have equal := uuids.distinct (named.symm.trans same)
    omega
  have old : ∀ row ∈ s.items.filterMap outcome.edit.row, ∃ item ∈ s.items,
      outcome.edit.row item = some row := fun row listed => mem_filterMap.mp listed
  have distinct : ((s.store.commit uuids call.now outcome).items.map Item.id).Nodup := by
    rw [after, map_append]
    refine nodup_append.mpr ⟨(edit_ids _ _).nodup identified.distinct, follows.distinct, ?_⟩
    rintro id edited other new rfl
    obtain ⟨row, listed, rfl⟩ := mem_map.mp edited
    obtain ⟨item, present, same⟩ := old row listed
    obtain ⟨row', listed', equal⟩ := mem_map.mp new
    obtain ⟨k, above, -, named⟩ := follows.drawn row' listed'
    apply fresh item present k above
    rw [← named, equal, edit_id same]
  refine ⟨?_, ?_, distinct, ?_, drawn, ?_, Or.inr ⟨call, rfl, rfl, ?_, ?_⟩⟩
  · intro item listed
    refine ⟨_, performs.edit item listed, ?_⟩
    intro kept same
    show kept ∈ (s.store.commit uuids call.now outcome).items
    rw [after]
    exact mem_append_left _ (mem_filterMap.mpr ⟨item, listed, same⟩)
  · intro row listed
    replace listed : row ∈ (s.store.commit uuids call.now outcome).items := listed
    rw [after] at listed
    rcases mem_append.mp listed with edited | new
    · obtain ⟨item, present, same⟩ := old row edited
      left
      refine ⟨item, present, ?_⟩
      rw [← same]
      exact performs.edit item present
    · right
      obtain ⟨k, above, -, named⟩ := follows.drawn row new
      obtain ⟨draft, id, present, rfl⟩ := mem_created uuids call.now new
      exact ⟨performs.drafts draft present id, k, above, named⟩
  · intro row listed
    replace listed : row ∈ (s.store.commit uuids call.now outcome).items := listed
    rw [after] at listed
    rcases mem_append.mp listed with edited | new
    · obtain ⟨item, present, same⟩ := old row edited
      obtain ⟨k, below, named⟩ := identified.known item present
      exact ⟨k, lt_of_lt_of_le below drawn, (edit_id same).trans named⟩
    · obtain ⟨k, -, below, named⟩ := follows.drawn row new
      exact ⟨k, below, named⟩
  · intro job listed
    have queue : (s.store.commit uuids call.now outcome).jobs =
        s.store.jobs ++ added outcome.writes := jobs
    rw [queue] at listed
    rcases mem_append.mp listed with before | new
    · exact Or.inl before
    · right
      obtain ⟨untouched, source⟩ := performs.jobs job (mem_added new)
      rcases source with ⟨item, present, named, package⟩ | ⟨draft, rest, writes, package, named⟩
      · refine ⟨item, ?_, named, package⟩
        show item ∈ (s.store.commit uuids call.now outcome).items
        rw [after, untouched]
        exact mem_append_left _ (mem_filterMap.mpr ⟨item, present, rfl⟩)
      · refine ⟨draft.row (uuids.draw s.store.drawn) call.now, ?_, named.symm, package⟩
        show _ ∈ (s.store.commit uuids call.now outcome).items
        rw [after, writes]
        exact mem_append_right _ mem_cons_self
  · intro investigationId hold asked
    obtain ⟨reached, written⟩ := performs.hold investigationId hold asked
    obtain ⟨id, present⟩ := created_mem uuids call.now written s.store.drawn
    refine ⟨reached, id, ?_⟩
    show _ ∈ (s.store.commit uuids call.now outcome).items
    rw [after]
    exact mem_append_right _ present
  · intro row listed asked
    obtain ⟨item, present, named, edited, same, approves⟩ := performs.review row.id asked
    have here : edited ∈ (s.store.commit uuids call.now outcome).items := by
      rw [after]
      exact mem_append_left _ (mem_filterMap.mpr ⟨item, present, same⟩)
    rw [eq_of_key distinct listed here ((edit_id same).trans named).symm]
    exact approves

theorem rewrites_moves (identified : Identified uuids s) {a : Step} {store : Store}
    (rewrites : ExportPackages.Rewrites s.store store)
    (work : ∀ item, item.type = exportPackage → DedicatedTo item a)
    (worker : ∀ call, a ≠ .call call) : Moves uuids s a { s with store := store } := by
  obtain ⟨metadata, changed, others⟩ := rewrites.items
  have fate : ∀ item ∈ s.items, Fate s item a (some { item with metadata := metadata item }) := by
    intro item listed
    by_cases package : item.type = exportPackage
    · exact Fate.processed a _ package (work item package)
    · rw [others item listed package]
      exact Fate.kept a
  refine ⟨?_, ?_, ?_, ?_, le_of_eq rewrites.drawn.symm, ?_, Or.inl ⟨rfl, worker⟩⟩
  · intro item listed
    refine ⟨_, fate item listed, ?_⟩
    intro kept same
    cases same
    show _ ∈ store.items
    rw [changed]
    exact mem_map.mpr ⟨item, listed, rfl⟩
  · intro row listed
    replace listed : row ∈ store.items := listed
    rw [changed] at listed
    obtain ⟨item, present, rfl⟩ := mem_map.mp listed
    exact Or.inl ⟨item, present, fate item present⟩
  · show (store.items.map Item.id).Nodup
    rw [changed, map_map]
    exact identified.distinct
  · intro row listed
    replace listed : row ∈ store.items := listed
    rw [changed] at listed
    obtain ⟨item, present, rfl⟩ := mem_map.mp listed
    obtain ⟨k, below, named⟩ := identified.known item present
    exact ⟨k, lt_of_lt_of_le below (le_of_eq rewrites.drawn.symm), named⟩
  · intro job listed
    left
    rw [← rewrites.jobs]
    exact listed

/-- A call that is refused changes nothing. -/
theorem step_moves (identified : Identified uuids s) {a : Step} {t : System}
    (taken : step uuids s a = some t) : t = s ∨ Moves uuids s a t := by
  cases a with
  | call call =>
    simp only [step] at taken
    cases answered : perform uuids s.store call.now call.user call.operation with
    | error failure =>
      rw [answered] at taken
      cases taken
      exact Or.inl rfl
    | ok outcome =>
      rw [answered] at taken
      cases taken
      exact Or.inr (commit_moves identified (perform_performs identified.distinct answered))
  | process index now signing written =>
    obtain ⟨job, queued, rfl⟩ := Option.map_eq_some_iff.mp taken
    have only := (identified.jobs job (List.mem_of_getElem? queued)).1
    exact Or.inr (rewrites_moves identified
      (ExportPackages.process_rewrites now signing written only) (fun _ package => package)
      fun _ same => by cases same)
  | retryAllPendingSignatures now signing written =>
    cases taken
    exact Or.inr (rewrites_moves identified
      (ExportPackages.retryAllPendingSignatures_rewrites now signing written identified.distinct)
      (fun _ package => package) fun _ same => by cases same)

end Moving

end DracVms.Investigations
