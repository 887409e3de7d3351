import DracVms.Investigations.InvestigationItems

namespace DracVms.Investigations

open Json (Text field setField)
open Database
open JsString (trim)
open JsDate (toISOString)
open AccessControl (isPrivileged)
open Alarms (text spread trimmed holds)
open Protection (legalHold)

/-- Letters whose capital is plain ASCII; the others stay as they are. -/
def capital : Char → Text
  | 'ı' => ['I']
  | 'ſ' => ['S']
  | 'ß' => ['S', 'S']
  | 'ﬀ' => ['F', 'F']
  | 'ﬁ' => ['F', 'I']
  | 'ﬂ' => ['F', 'L']
  | 'ﬃ' => ['F', 'F', 'I']
  | 'ﬄ' => ['F', 'F', 'L']
  | 'ﬅ' => ['S', 'T']
  | 'ﬆ' => ['S', 'T']
  | c => [c.toUpper]

/-- `toUpperCase`, as far as a comparison with an ASCII word sees it. -/
def upperCase (value : Text) : Text := value.flatMap capital

def allowedLifecycle : List Text :=
  ["OPEN".toList, "IN_REVIEW".toList, "PENDING_APPROVAL".toList, "CLOSED".toList, "ARCHIVED".toList]

def normalizeLifecycle (status : Option Text) : Text :=
  let raw := upperCase (trim (status.getD "OPEN".toList))
  if raw = "ACTIVE".toList then "IN_REVIEW".toList
  else if raw = "REVIEW".toList then "IN_REVIEW".toList
  else if raw ∈ allowedLifecycle then raw else "OPEN".toList

/-- An item as the validation of its body lets it through. -/
structure CreateInvestigationItemDto where
  type : Text
  label : Text
  cameraId : Option Text
  cameraName : Option Text
  eventId : Option Text
  recordingId : Option Text
  timestamp : Instant
  notes : Option Text
  metadata : Option (List (Text × Metadata))
  typeShort : type.length ≤ 32
  typeFree : type ∉ serverOwnedTypes
  labelShort : label.length ≤ 240
  notesShort : ∀ value ∈ notes, value.length ≤ 4000

structure CreateBookmarkDto where
  label : Text
  timestamp : Instant
  cameraId : Option Text
  cameraName : Option Text
  notes : Option Text

structure CreateExportRequestDto where
  reason : Option Text
  format : Option Text
  itemIds : Option (List Text)
  recordingIds : Option (List Text)
  clipIds : Option (List Text)

structure CaseMetaDto where
  priority : Option Text
  classification : Option Text
  ownerUserId : Option Text
  ownerUserName : Option Text
  /-- The id and the name of each. -/
  participants : Option (List (Text × Text))

inductive Operation where
  | create (title : Text) (status summary : Option Text)
  | update (investigationId : Text) (title status : Option Text)
  | addItem (investigationId : Text) (dto : CreateInvestigationItemDto)
  | updateItem (investigationId itemId : Text) (notes : Option Text)
  | removeItem (investigationId itemId : Text)
  | addBookmark (investigationId : Text) (dto : CreateBookmarkDto)
  | transitionLifecycle (investigationId status : Text) (note : Option Text)
  | addNote (investigationId note : Text)
  | setLegalHold (investigationId : Text) (dto : LegalHoldBody)
  | createExportRequest (investigationId : Text) (dto : CreateExportRequestDto)
  | reviewExportRequest (investigationId requestId decision : Text) (reason : Option Text)
  | executeExportRequest (investigationId requestId : Text) (reason : Option Text)
  | enqueueRetryPendingSignatures (investigationId : Text)
  | upsertCaseMeta (investigationId : Text) (dto : CaseMetaDto)

def statusKey : Text := "status".toList

def approved : Text := "APPROVED".toList

def isText (value : Text) : Option Metadata → Bool
  | some (.atom (.string given)) => given = value
  | _ => false

def isObject : Option Metadata → Bool
  | some (.array _) => true
  | some (.object _) => true
  | _ => false

def hasStatus (status : Text) (metadata : Option Metadata) : Bool :=
  isText status (field (spread metadata) statusKey)

/-- A text that has to be more than blanks. -/
def required (message : Text) (value : Option Text) : Except Failure Text :=
  found (.badRequest message) (trimmed value)

def actorFields (actor : User) : List (Text × Metadata) :=
  [("actorUserId".toList, text actor.id), ("actorUserName".toList, text actor.name)]

section Service

variable (uuids : Uuids) (store : Store) (now : Instant) (user : User)

def addActivity (investigationId label : Text) (notes : Option Text) : Write :=
  .createItem
    { investigationId := investigationId, type := activityType, label := label, timestamp := now
      notes := trimmed notes, metadata := some (.object (actorFields user)) }

def create (title : Text) (status summary : Option Text) : Outcome where
  writes := [.createInvestigation (trim title) (normalizeLifecycle status) user.id,
    addActivity now user (uuids.draw store.drawn) "Investigation criada".toList summary]

def update (investigationId : Text) (title status : Option Text) : Except Failure Outcome := do
  let _ ← store.assertAccessible user investigationId
  return {
    writes := [
      .updateInvestigation investigationId (title.map trim)
        (status.map fun value => normalizeLifecycle (some value)),
      addActivity now user investigationId "Investigation atualizada".toList none] }

def itemDraft (investigationId : Text) (dto : CreateInvestigationItemDto) : Draft where
  investigationId := investigationId
  type := dto.type
  label := trim dto.label
  cameraId := dto.cameraId
  cameraName := dto.cameraName
  eventId := dto.eventId
  recordingId := dto.recordingId
  timestamp := dto.timestamp
  notes := trimmed dto.notes
  metadata := dto.metadata.map .object

def addItem (investigationId : Text) (dto : CreateInvestigationItemDto) :
    Except Failure Outcome := do
  let _ ← store.assertAccessible user investigationId
  return {
    writes := [
      .createItem (itemDraft investigationId dto),
      addActivity now user investigationId ("Evidência adicionada (".toList ++ dto.type ++ [')'])
        (some dto.label)] }

/-- Any item of the case, whatever its type. Without notes in the body nothing is changed. -/
def updateItem (investigationId itemId : Text) (notes : Option Text) : Except Failure Outcome := do
  let _ ← store.assertAccessible user investigationId
  let existing ← found itemNotFound (store.findItem investigationId itemId)
  return {
    edit := match notes with
      | some _ => .setNotes itemId (trimmed notes)
      | none => .nothing
    writes := [
      addActivity now user investigationId "Evidência atualizada".toList (some existing.label)] }

def isHeld (investigationId itemId : Text) : Bool :=
  let hold := store.getActiveLegalHold investigationId
  hold.enabled && itemId ∈ hold.itemIds

def removeItem (investigationId itemId : Text) : Except Failure Outcome := do
  let _ ← store.assertAccessible user investigationId
  if isHeld store investigationId itemId then
    throw (.badRequest "Item protegido por legal hold ativo.".toList)
  let existing ← found itemNotFound (store.findItem investigationId itemId)
  return {
    edit := .delete itemId
    writes := [
      addActivity now user investigationId "Evidência removida".toList (some existing.label)] }

def addBookmark (investigationId : Text) (dto : CreateBookmarkDto) : Except Failure Outcome := do
  let _ ← store.assertAccessible user investigationId
  return {
    writes := [
      .createItem
        { investigationId := investigationId, type := "bookmark".toList, label := trim dto.label
          cameraId := dto.cameraId, cameraName := dto.cameraName, timestamp := dto.timestamp
          notes := trimmed dto.notes },
      addActivity now user investigationId "Bookmark adicionado".toList (some dto.label)] }

def lifecycleFields (previousStatus nextStatus : Text) (note : Option Text) :
    List (Text × Metadata) :=
  actorFields user ++
    [("previousStatus".toList, text previousStatus), ("nextStatus".toList, text nextStatus),
      ("changedAt".toList, text (toISOString now))] ++
    if nextStatus = "CLOSED".toList then
      [("closedAt".toList, text (toISOString now)), ("closedByUserId".toList, text user.id),
        ("closedByUserName".toList, text user.name),
        ("closureNote".toList, Alarms.optional (trimmed note))]
    else []

def lifecycleDraft (investigationId previousStatus nextStatus : Text) (note : Option Text) :
    Draft where
  investigationId := investigationId
  type := lifecycleType
  label := if nextStatus = "CLOSED".toList then "Caso fechado".toList
    else "Status alterado para ".toList ++ nextStatus
  timestamp := now
  notes := trimmed note
  metadata := some (.object (lifecycleFields now user previousStatus nextStatus note))

def transitionLifecycle (investigationId status : Text) (note : Option Text) :
    Except Failure Outcome := do
  if upperCase status = "CLOSED".toList && (trimmed note).isNone then
    throw (.badRequest "Motivo é obrigatório para fechar o caso.".toList)
  let current ← store.assertAccessible user investigationId
  let nextStatus := normalizeLifecycle (some status)
  let previousStatus := normalizeLifecycle (some current.status)
  return {
    writes := [
      .updateInvestigation investigationId none (some nextStatus),
      .createItem (lifecycleDraft now user investigationId previousStatus nextStatus note)] ++
      if nextStatus = "CLOSED".toList then
        [addActivity now user investigationId "Caso fechado e auditado".toList (trimmed note)]
      else [] }

def addNote (investigationId note : Text) : Except Failure Outcome := do
  let _ ← store.assertAccessible user investigationId
  let clean ← required "Nota não pode ser vazia.".toList (some note)
  return {
    writes := [
      .createItem
        { investigationId := investigationId, type := "note".toList
          label := "Nota de ".toList ++ user.name, timestamp := now, notes := some clean
          metadata := some (.object (actorFields user)) },
      addActivity now user investigationId "Nota adicionada".toList (some clean)] }

def holdDraft (investigationId : Text) (payload : LegalHold) : Draft where
  investigationId := investigationId
  type := legalHold
  label := if payload.enabled then "Legal hold ativado".toList
    else "Legal hold desativado".toList
  timestamp := now
  notes := payload.reason
  metadata := some (payload.document now user)

/-- Nobody looks whether the items that the hold lists are there. -/
def setLegalHold (investigationId : Text) (dto : LegalHoldBody) : Except Failure Outcome := do
  let _ ← store.assertAccessible user investigationId
  let draft := holdDraft now user investigationId dto.payload
  return {
    writes := [
      .createItem draft, addActivity now user investigationId draft.label dto.payload.reason] }

def requestFields (dto : CreateExportRequestDto) (reason : Text) : List (Text × Metadata) :=
  [(statusKey, text "PENDING".toList), ("format".toList, text (dto.format.getD "MP4".toList)),
    ("requestedByUserId".toList, text user.id), ("requestedByUserName".toList, text user.name),
    ("reason".toList, text reason), ("itemIds".toList, textList (dto.itemIds.getD [])),
    ("recordingIds".toList, textList (dto.recordingIds.getD [])),
    ("clipIds".toList, textList (dto.clipIds.getD [])),
    ("reviewedByUserId".toList, .atom .null), ("reviewedByUserName".toList, .atom .null),
    ("reviewedAt".toList, .atom .null)]

def createExportRequest (investigationId : Text) (dto : CreateExportRequestDto) :
    Except Failure Outcome := do
  let _ ← store.assertAccessible user investigationId
  let reason ← required "Motivo é obrigatório para solicitar exportação.".toList dto.reason
  return {
    writes := [
      .createItem
        { investigationId := investigationId, type := exportRequest
          label := "Solicitação de exportação (".toList ++ dto.format.getD "MP4".toList ++ [')']
          timestamp := now, notes := some reason
          metadata := some (.object (requestFields user dto reason)) },
      addActivity now user investigationId "Solicitação de exportação criada".toList
        (some reason)] }

def reviewFields (decision reason : Text) : List (Text × Metadata) :=
  [(statusKey, text decision), ("decisionReason".toList, text reason),
    ("reviewedByUserId".toList, text user.id), ("reviewedByUserName".toList, text user.name),
    ("reviewedAt".toList, text (toISOString now))]

/-- `{ ...metadata, ...fields }` -/
def merged (metadata : Option Metadata) (fields : List (Text × Metadata)) : Metadata :=
  .object (fields.foldl setField (spread metadata))

def reviewLabel (decision : Text) : Text :=
  "Solicitação de exportação ".toList ++
    if decision = approved then "aprovada".toList else "rejeitada".toList

def reviewExportRequest (investigationId requestId decision : Text) (reason : Option Text) :
    Except Failure Outcome := do
  let _ ← store.assertAccessible user investigationId
  if !isPrivileged user.toAuthUser then
    throw (.badRequest "Apenas ADMIN/SUPER_ADMIN podem aprovar ou rejeitar exportação.".toList)
  let reqItem ← found requestNotFound (store.findRequest investigationId requestId)
  let reason ← required "Motivo da decisão é obrigatório.".toList reason
  return {
    edit := .setMetadata requestId (merged reqItem.metadata (reviewFields now user decision reason))
    writes := [ addActivity now user investigationId (reviewLabel decision) (some reason)] }

def packageDraft (investigationId requestId reason : Text) : Draft where
  investigationId := investigationId
  type := exportPackage
  label := "Pacote exportado ".toList ++ toISOString now
  eventId := some requestId
  timestamp := now
  notes := some reason
  metadata := some (.object [("requestId".toList, text requestId),
    (statusKey, text "QUEUED".toList), ("progress".toList, .atom (.number 0)),
    ("queuedAt".toList, text (toISOString now)), ("queuedByUserId".toList, text user.id),
    ("queuedByUserName".toList, text user.name)])

def executeExportRequest (investigationId requestId : Text) (reason : Option Text) :
    Except Failure Outcome := do
  let _ ← store.assertAccessible user investigationId
  let cleanReason ← required "Motivo é obrigatório para executar exportação.".toList reason
  let reqItem ← found requestNotFound (store.findRequest investigationId requestId)
  if hasStatus approved reqItem.metadata then
    return {
      writes := [
        .createItem (packageDraft now user investigationId requestId cleanReason),
        .addJob (.executeExport ⟨investigationId, requestId, uuids.draw store.drawn, cleanReason,
          user.id, user.name⟩),
        addActivity now user investigationId "Execução de exportação enfileirada".toList
          (some cleanReason)] }
  else throw (.badRequest "Solicitação ainda não aprovada.".toList)

def isPendingSignature (item : Item) : Bool :=
  hasStatus "PENDING_SIGNATURE".toList item.metadata &&
    isObject (field (spread item.metadata) "payload".toList)

def enqueueRetryPendingSignatures (investigationId : Text) : Except Failure Outcome := do
  let _ ← store.assertAccessible user investigationId
  let packages := store.items.filter fun item =>
    item.investigationId = investigationId && item.type = exportPackage
  let pending := (packages.insertionSort fun a b => b.createdAt ≤ a.createdAt).take 200
  let queued := pending.filter isPendingSignature
  return {
    writes := (queued.map fun item => .addJob (.retrySignature investigationId item.id)) ++
      [addActivity now user investigationId "Reprocessamento de assinatura enfileirado".toList
        (some ("itens=".toList ++ Nat.toDigits 10 queued.length))] }

def participantsOf (participants : List (Text × Text)) : List Metadata :=
  ((participants.map fun (userId, userName) => (trim userId, trim userName)).filter
    fun (userId, userName) => userId ≠ [] && userName ≠ []).map fun (userId, userName) =>
      .object [("userId".toList, text userId), ("userName".toList, text userName)]

def ownerOf (ownerUserId ownerUserName : Option Text) : Metadata :=
  match ownerUserId, ownerUserName with
  | some userId, some userName =>
    .object [("userId".toList, text userId), ("userName".toList, text userName)]
  | _, _ => .atom .null

def caseMetaFields (dto : CaseMetaDto) : List (Text × Metadata) :=
  let general := "GENERAL".toList
  [("priority".toList, text (dto.priority.getD "NORMAL".toList)),
    ("classification".toList,
      text ((trimmed (some (dto.classification.getD general))).getD general)),
    ("owner".toList, ownerOf (trimmed dto.ownerUserId) (trimmed dto.ownerUserName)),
    ("participants".toList, .array (participantsOf (dto.participants.getD []))),
    ("updatedByUserId".toList, text user.id), ("updatedByUserName".toList, text user.name)]

def upsertCaseMeta (investigationId : Text) (dto : CaseMetaDto) : Except Failure Outcome := do
  let _ ← store.assertAccessible user investigationId
  return {
    writes := [
      .createItem
        { investigationId := investigationId, type := caseMeta
          label := "Metadados do caso".toList, timestamp := now
          metadata := some (.object (caseMetaFields user dto)) },
      addActivity now user investigationId "Metadados do caso atualizados".toList none] }

def perform : Operation → Except Failure Outcome
  | .create title status summary => .ok (create uuids store now user title status summary)
  | .update investigationId title status => update store now user investigationId title status
  | .addItem investigationId dto => addItem store now user investigationId dto
  | .updateItem investigationId itemId notes =>
    updateItem store now user investigationId itemId notes
  | .removeItem investigationId itemId => removeItem store now user investigationId itemId
  | .addBookmark investigationId dto => addBookmark store now user investigationId dto
  | .transitionLifecycle investigationId status note =>
    transitionLifecycle store now user investigationId status note
  | .addNote investigationId note => addNote store now user investigationId note
  | .setLegalHold investigationId dto => setLegalHold store now user investigationId dto
  | .createExportRequest investigationId dto =>
    createExportRequest store now user investigationId dto
  | .reviewExportRequest investigationId requestId decision reason =>
    reviewExportRequest store now user investigationId requestId decision reason
  | .executeExportRequest investigationId requestId reason =>
    executeExportRequest uuids store now user investigationId requestId reason
  | .enqueueRetryPendingSignatures investigationId =>
    enqueueRetryPendingSignatures store now user investigationId
  | .upsertCaseMeta investigationId dto => upsertCaseMeta store now user investigationId dto

end Service

end DracVms.Investigations
