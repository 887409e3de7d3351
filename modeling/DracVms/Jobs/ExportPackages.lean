import DracVms.Investigations.InvestigationsService

namespace DracVms.ExportPackages

open List

open Json (Text field)
open Database
open JsDate (toISOString)
open Alarms (text spread)
open KeyedList (lookup)
open EvidenceExport (ExecuteExportJob ExportError evidenceTypes)
open Investigations

/-- What the signature and the storage answer. -/
structure Signing where
  result : Except Text Metadata
  artifact : Metadata

/-- Changes to the document of a package, on top of what it is by then. -/
abbrev Patch := List (Text × Metadata)

/-- The row is looked up by its id alone. -/
def setPackageStatus (now : Instant) (packageItemId : Text) (store : Store) (patch : Patch) :
    Store :=
  match lookup Item.id store.items packageItemId with
  | none => store
  | some item => store.edit (.setMetadata packageItemId
      (merged item.metadata (patch ++ [("updatedAt".toList, text (toISOString now))])))

def failed (error : ExportError) : Patch :=
  [(statusKey, text "FAILED".toList), ("error".toList, text error.message.toList)]

def evidenceFields (item : Item) : List (Text × Metadata) :=
  [("id".toList, text item.id), ("type".toList, text item.type), ("label".toList, text item.label),
    ("cameraId".toList, Alarms.optional item.cameraId),
    ("recordingId".toList, Alarms.optional item.recordingId),
    ("timestamp".toList, text (toISOString item.timestamp))]

def evidenceOf (store : Store) (investigationId : Text) : List Item :=
  ((store.items.filter fun item => item.investigationId = investigationId).insertionSort
    fun a b => a.timestamp ≤ b.timestamp).filter fun item => item.type ∈ evidenceTypes

def payloadOf (now : Instant) (data : ExecuteExportJob) (reqItem : Item) (inv : Investigation)
    (evidence : List Item) : Metadata :=
  .object [("investigationId".toList, text inv.id), ("investigationTitle".toList, text inv.title),
    ("exportedAt".toList, text (toISOString now)),
    ("executedByUserId".toList, text data.executedByUserId),
    ("executedByUserName".toList, text data.executedByUserName),
    ("executionReason".toList, text data.executionReason),
    ("requestId".toList, text data.requestId),
    ("request".toList, .object (spread reqItem.metadata)),
    ("evidenceItems".toList, .array (evidence.map fun item => .object (evidenceFields item)))]

def packed (signing : Signing) (payload : Metadata) : Patch :=
  match signing.result with
  | .ok signature =>
    [(statusKey, text "READY".toList), ("progress".toList, .atom (.number 100)),
      ("payload".toList, payload), ("signature".toList, signature),
      ("artifact".toList, signing.artifact), ("signatureError".toList, .atom .null)]
  | .error message =>
    [(statusKey, text "PENDING_SIGNATURE".toList), ("progress".toList, .atom (.number 100)),
      ("payload".toList, payload), ("signature".toList, .atom .null),
      ("artifact".toList, signing.artifact), ("signatureError".toList, text message)]

/-- The changes of an `execute-export` job, in their order. -/
def executeExport (store : Store) (now : Instant) (signing : Signing) (data : ExecuteExportJob) :
    List Patch :=
  [(statusKey, text "PROCESSING".toList), ("progress".toList, .atom (.number 20))] ::
    match store.findRequest data.investigationId data.requestId with
    | none => [failed .requestNotFound]
    | some reqItem =>
      if hasStatus approved reqItem.metadata then
        match lookup Investigation.id store.investigations data.investigationId with
        | none => [failed .investigationNotFound]
        | some inv =>
          [[("progress".toList, .atom (.number 60))],
            packed signing (payloadOf now data reqItem inv (evidenceOf store data.investigationId))]
      else [failed .requestNotApproved]

def signed (now : Instant) (signing : Signing) : Patch :=
  match signing.result with
  | .ok signature =>
    [(statusKey, text "READY".toList), ("signature".toList, signature),
      ("artifact".toList, signing.artifact), ("signatureError".toList, .atom .null),
      ("retriedAt".toList, text (toISOString now))]
  | .error message =>
    [(statusKey, text "PENDING_SIGNATURE".toList), ("signatureError".toList, text message),
      ("retriedAt".toList, text (toISOString now))]

def retrySingleSignature (now : Instant) (signing : Signing) (store : Store)
    (packageItemId : Text) : Store :=
  match lookup Item.id store.items packageItemId with
  | none => store
  | some item =>
    if isPendingSignature item then
      setPackageStatus now packageItemId store (signed now signing)
    else store

/-- A job, which may break down after any of its changes. -/
def process (now : Instant) (signing : Signing) (written : ℕ) (store : Store) :
    ExportJob → Store
  | .executeExport data =>
    ((executeExport store now signing data).take written).foldl
      (setPackageStatus now data.packageItemId) store
  | .retrySignature _ packageItemId =>
    if written = 0 then store else retrySingleSignature now signing store packageItemId

def pendingItems (store : Store) : List Item :=
  ((store.items.filter fun item =>
    item.type = exportPackage && hasStatus "PENDING_SIGNATURE".toList item.metadata).insertionSort
    fun a b => a.createdAt ≤ b.createdAt).take 200

/-- The regular job over all the packages that wait for their signature. -/
def retryAllPendingSignatures (now : Instant) (signing : Text → Signing) (written : ℕ)
    (store : Store) : Store :=
  ((pendingItems store).take written).foldl
    (fun store item => retrySingleSignature now (signing item.id) store item.id) store

/-! What the worker can do to the items. -/

/-- Only documents of packages differ. -/
def RewritesPackages (before after : List Item) : Prop :=
  ∃ metadata : Item → Option Metadata,
    after = before.map (fun item => { item with metadata := metadata item }) ∧
      ∀ item ∈ before, item.type ≠ exportPackage → metadata item = item.metadata

structure Rewrites (before after : Store) : Prop where
  items : RewritesPackages before.items after.items
  investigations : after.investigations = before.investigations
  jobs : after.jobs = before.jobs
  drawn : after.drawn = before.drawn

theorem Rewrites.refl (store : Store) : Rewrites store store := by
  refine ⟨⟨fun item => item.metadata, ?_, fun _ _ _ => rfl⟩, rfl, rfl, rfl⟩
  exact (map_id' _).symm

theorem Rewrites.trans {first second third : Store} (one : Rewrites first second)
    (two : Rewrites second third) : Rewrites first third := by
  obtain ⟨before, changed, kept⟩ := one.items
  obtain ⟨after, changed', kept'⟩ := two.items
  refine ⟨⟨fun item => after { item with metadata := before item }, ?_, ?_⟩,
    two.investigations.trans one.investigations, two.jobs.trans one.jobs,
    two.drawn.trans one.drawn⟩
  · rw [changed', changed, map_map]
    rfl
  · intro item listed other
    have same := kept item listed other
    have present : { item with metadata := before item } ∈ second.items := by
      rw [changed]
      exact mem_map.mpr ⟨item, listed, rfl⟩
    exact (kept' _ present other).trans same

/-- The items with an id are packages, if there are any. -/
def PackageOnly (items : List Item) (id : Text) : Prop :=
  ∀ item ∈ items, item.id = id → item.type = exportPackage

theorem Rewrites.packageOnly {before after : Store} (rewrites : Rewrites before after) {id : Text}
    (only : PackageOnly before.items id) : PackageOnly after.items id := by
  obtain ⟨metadata, changed, -⟩ := rewrites.items
  intro item listed named
  rw [changed] at listed
  obtain ⟨old, present, rfl⟩ := mem_map.mp listed
  exact only old present named

variable (now : Instant) {store : Store}

theorem setPackageStatus_rewrites {packageItemId : Text} (patch : Patch)
    (only : PackageOnly store.items packageItemId) :
    Rewrites store (setPackageStatus now packageItemId store patch) := by
  unfold setPackageStatus
  split
  · exact Rewrites.refl store
  · refine ⟨⟨_, setMetadata_rows store.items packageItemId _, ?_⟩, rfl, rfl, rfl⟩
    intro row listed other
    exact if_neg fun here => other (only row listed here)

theorem foldl_rewrites {α : Type} (next : Store → α → Store) (id : α → Text)
    (each : ∀ store a, PackageOnly store.items (id a) → Rewrites store (next store a))
    (list : List α) (store : Store) (only : ∀ a ∈ list, PackageOnly store.items (id a)) :
    Rewrites store (list.foldl next store) := by
  induction list generalizing store with
  | nil => exact Rewrites.refl store
  | cons a rest ih =>
    have first := each store a (only a mem_cons_self)
    apply first.trans
    apply ih
    intro b listed
    exact first.packageOnly (only b (mem_cons_of_mem _ listed))

theorem retrySingleSignature_rewrites (signing : Signing) {packageItemId : Text}
    (only : PackageOnly store.items packageItemId) :
    Rewrites store (retrySingleSignature now signing store packageItemId) := by
  unfold retrySingleSignature
  split
  · exact Rewrites.refl store
  · split
    · exact setPackageStatus_rewrites now _ only
    · exact Rewrites.refl store

theorem process_rewrites (signing : Signing) (written : ℕ) {job : ExportJob}
    (only : PackageOnly store.items job.packageItemId) :
    Rewrites store (process now signing written store job) := by
  cases job with
  | executeExport data =>
    apply foldl_rewrites (setPackageStatus now data.packageItemId) fun _ => data.packageItemId
    · intro store patch only
      exact setPackageStatus_rewrites now patch only
    · intro _ _
      exact only
  | retrySignature investigationId packageItemId =>
    simp only [process]
    split
    · exact Rewrites.refl store
    · exact retrySingleSignature_rewrites now signing only

theorem retryAllPendingSignatures_rewrites (signing : Text → Signing) (written : ℕ)
    (distinct : (store.items.map Item.id).Nodup) :
    Rewrites store (retryAllPendingSignatures now signing written store) := by
  apply foldl_rewrites _ Item.id
  · intro store item only
    exact retrySingleSignature_rewrites now (signing item.id) only
  · intro item listed other present named
    have pending := mem_of_mem_take (mem_of_mem_take listed)
    rw [mem_insertionSort] at pending
    obtain ⟨known, waits⟩ := mem_filter.mp pending
    rw [KeyedList.eq_of_key distinct present known named]
    simp only [Bool.and_eq_true, decide_eq_true_eq] at waits
    exact waits.1

end DracVms.ExportPackages
