import DracVms.Alarms.AlarmsService
import DracVms.Jobs.EvidenceExportProcessor

namespace DracVms.Investigations

open Json (Text field setField)
open Database
open JsString (trim)
open JsDate (toISOString)
open AccessControl (isPrivileged)
open Alarms (text optional trimmed holds)
open Protection (camposDe textoDe legalHold)

def activityType : Text := "activity".toList

def lifecycleType : Text := "lifecycle".toList

def caseMeta : Text := "case_meta".toList

def exportRequest : Text := "export_request".toList

def exportPackage : Text := "export_package".toList

/-- `SERVER_OWNED_INVESTIGATION_ITEM_TYPES` -/
def serverOwnedTypes : List Text :=
  [exportPackage, exportRequest, legalHold, activityType, lifecycleType, caseMeta]

structure User extends AccessControl.AuthUser where
  name : Text

structure Investigation where
  id : Text
  title : Text
  status : Text
  createdByUserId : Option Text

structure Item extends InvestigationItem where
  id : Text
  label : Text
  cameraId : Option Text
  cameraName : Option Text
  timestamp : Instant
  notes : Option Text

/-- What an operation writes of a new item. The database adds the id and `createdAt`. -/
structure Draft where
  investigationId : Text
  type : Text
  label : Text
  cameraId : Option Text := none
  cameraName : Option Text := none
  eventId : Option Text := none
  recordingId : Option Text := none
  timestamp : Instant
  notes : Option Text := none
  metadata : Option Metadata := none

def Draft.row (draft : Draft) (id : Text) (now : Instant) : Item where
  investigationId := draft.investigationId
  type := draft.type
  recordingId := draft.recordingId
  eventId := draft.eventId
  metadata := draft.metadata
  createdAt := now
  id := id
  label := draft.label
  cameraId := draft.cameraId
  cameraName := draft.cameraName
  timestamp := draft.timestamp
  notes := draft.notes

inductive ExportJob where
  | executeExport (data : EvidenceExport.ExecuteExportJob)
  | retrySignature (investigationId packageItemId : Text)

def ExportJob.packageItemId : ExportJob → Text
  | .executeExport data => data.packageItemId
  | .retrySignature _ packageItemId => packageItemId

/-- The ids that the database draws never repeat. -/
structure Uuids where
  draw : ℕ → Text
  distinct : Function.Injective draw

structure Store where
  investigations : List Investigation
  items : List Item
  jobs : List ExportJob
  drawn : ℕ

/-- What happens to an item that is there. -/
inductive Edit where
  | nothing
  | delete (id : Text)
  | setNotes (id : Text) (notes : Option Text)
  | setMetadata (id : Text) (metadata : Metadata)

def Edit.row : Edit → Item → Option Item
  | .nothing, item => some item
  | .delete id, item => if item.id = id then none else some item
  | .setNotes id notes, item => some (if item.id = id then { item with notes := notes } else item)
  | .setMetadata id metadata, item =>
    some (if item.id = id then { item with metadata := some metadata } else item)

inductive Write where
  | createInvestigation (title status createdByUserId : Text)
  | updateInvestigation (id : Text) (title status : Option Text)
  | createItem (draft : Draft)
  | addJob (job : ExportJob)

theorem setMetadata_rows (items : List Item) (id : Text) (metadata : Metadata) :
    items.filterMap (Edit.setMetadata id metadata).row = items.map fun item =>
      { item with metadata := if item.id = id then some metadata else item.metadata } := by
  rw [← List.filterMap_eq_map]
  apply List.filterMap_congr
  intro item _
  by_cases here : item.id = id
  all_goals simp [Edit.row, here]

/-- The writes of an operation in their order: one item at most is edited, before the others. -/
structure Outcome where
  edit : Edit := .nothing
  writes : List Write

section Commit

variable (uuids : Uuids) (now : Instant)

def Store.write (store : Store) : Write → Store
  | .createInvestigation title status createdByUserId =>
    { store with
      investigations := store.investigations ++
        [⟨uuids.draw store.drawn, title, status, some createdByUserId⟩]
      drawn := store.drawn + 1 }
  | .updateInvestigation id title status =>
    { store with
      investigations := KeyedList.updateAt Investigation.id store.investigations id
        fun investigation => { investigation with
          title := title.getD investigation.title
          status := status.getD investigation.status } }
  | .createItem draft =>
    { store with
      items := store.items ++ [draft.row (uuids.draw store.drawn) now]
      drawn := store.drawn + 1 }
  | .addJob job => { store with jobs := store.jobs ++ [job] }

def Store.edit (store : Store) (edit : Edit) : Store :=
  { store with items := store.items.filterMap edit.row }

def Store.commit (store : Store) (outcome : Outcome) : Store :=
  outcome.writes.foldl (Store.write uuids now) (store.edit outcome.edit)

end Commit

inductive Failure where
  | notFound (message : Text)
  | badRequest (message : Text)
  deriving DecidableEq

def caseNotFound : Failure := .notFound "Investigation não encontrada.".toList

def itemNotFound : Failure := .notFound "Item de evidência não encontrado.".toList

def requestNotFound : Failure := .notFound "Solicitação de exportação não encontrada.".toList

def found {α : Type} (failure : Failure) : Option α → Except Failure α
  | some value => .ok value
  | none => .error failure

namespace Store

variable (store : Store)

/-- Administrators reach every case, the others their own. -/
def assertAccessible (user : User) (id : Text) : Except Failure Investigation :=
  match KeyedList.lookup Investigation.id store.investigations id with
  | none => .error caseNotFound
  | some investigation =>
    if isPrivileged user.toAuthUser || investigation.createdByUserId = some user.id then
      .ok investigation
    else .error caseNotFound

def findItem (investigationId id : Text) : Option Item :=
  store.items.find? fun item => item.id = id && item.investigationId = investigationId

def findRequest (investigationId id : Text) : Option Item :=
  store.items.find? fun item =>
    item.id = id && item.investigationId = investigationId && item.type = exportRequest

end Store

/-! The legal hold. -/

structure LegalHold where
  enabled : Bool
  reason : Option Text
  recordingIds : List Text
  clipIds : List Text
  itemIds : List Text
  deriving DecidableEq

/-- `Array.isArray(value) ? value.filter((x) => typeof x === 'string') : []` -/
def textsOf : Option Metadata → List Text
  | some (.array items) => items.filterMap textoDe
  | _ => []

def LegalHold.ofFields (m : List (Text × Metadata)) : LegalHold where
  enabled := holds (field m "enabled".toList)
  reason := (field m "reason".toList).bind textoDe
  recordingIds := textsOf (field m "recordingIds".toList)
  clipIds := textsOf (field m "clipIds".toList)
  itemIds := textsOf (field m "itemIds".toList)

/-- Without a hold, and with one whose document is no object, nothing is held. -/
def Store.getActiveLegalHold (store : Store) (investigationId : Text) : LegalHold :=
  let latest := (store.items.filter fun item =>
    item.investigationId = investigationId && item.type = legalHold).argmax fun item =>
      item.createdAt
  .ofFields (camposDe (latest.bind fun item => item.metadata))

/-- The body of a request for a hold. -/
structure LegalHoldBody where
  enabled : Option Metadata
  reason : Option Text
  recordingIds : Option Metadata
  clipIds : Option Metadata
  itemIds : Option Metadata

def LegalHoldBody.payload (dto : LegalHoldBody) : LegalHold where
  enabled := holds dto.enabled
  reason := trimmed dto.reason
  recordingIds := textsOf dto.recordingIds
  clipIds := textsOf dto.clipIds
  itemIds := textsOf dto.itemIds

def textList (texts : List Text) : Metadata := .array (texts.map text)

def LegalHold.document (payload : LegalHold) (now : Instant) (user : User) : Metadata :=
  .object [("enabled".toList, .atom (.bool payload.enabled)),
    ("reason".toList, optional payload.reason),
    ("recordingIds".toList, textList payload.recordingIds),
    ("clipIds".toList, textList payload.clipIds), ("itemIds".toList, textList payload.itemIds),
    ("updatedByUserId".toList, text user.id), ("updatedByUserName".toList, text user.name),
    ("updatedAt".toList, text (toISOString now))]

theorem textsOf_textList (texts : List Text) : textsOf (some (textList texts)) = texts := by
  show (texts.map text).filterMap textoDe = texts
  rw [List.filterMap_map]
  exact List.filterMap_some

theorem ofFields_document (payload : LegalHold) (now : Instant) (user : User) :
    LegalHold.ofFields (camposDe (some (payload.document now user))) = payload := by
  obtain ⟨enabled, reason, recordingIds, clipIds, itemIds⟩ := payload
  have stated : (some (Alarms.optional reason)).bind textoDe = reason := by
    cases reason <;> rfl
  have same : LegalHold.ofFields (camposDe (some
      (LegalHold.document ⟨enabled, reason, recordingIds, clipIds, itemIds⟩ now user))) =
      ⟨enabled, (some (Alarms.optional reason)).bind textoDe, textsOf (some (textList recordingIds)),
        textsOf (some (textList clipIds)), textsOf (some (textList itemIds))⟩ := rfl
  rw [same, stated, textsOf_textList, textsOf_textList, textsOf_textList]

end DracVms.Investigations
