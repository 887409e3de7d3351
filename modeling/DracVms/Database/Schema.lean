import DracVms.Library.JsonText

namespace DracVms.Database

open Json

/-- Milliseconds, as `Date.getTime` counts them. -/
abbrev Instant := Nat

/-- A row of `Recording`. Its `filePath` is unique in the table. -/
structure Recording where
  id : Text
  cameraId : Text
  triggerMode : Text
  startedAt : Instant
  endedAt : Option Instant
  filePath : Text
  sizeBytes : Option Int
  cloudKey : Option Text
  cloudUploadedAt : Option Instant
  cloudStorageId : Option Text
  localDeletedAt : Option Instant
  cloudMissingSince : Option Instant
  deriving DecidableEq

/-- A JSON column. Its numbers are rational, as every finite double is. -/
abbrev Metadata := Value (Scalar Rat)

structure InvestigationItem where
  investigationId : Text
  type : Text
  recordingId : Option Text
  eventId : Option Text
  metadata : Option Metadata
  createdAt : Instant

structure ExportedClip where
  id : Text
  sourceRecordingId : Text

structure Tables where
  recordings : List Recording
  investigationItems : List InvestigationItem
  exportedClips : List ExportedClip

def byStart (rows : List Recording) : List Recording :=
  rows.insertionSort fun a b => a.startedAt ≤ b.startedAt

variable (rows : List Recording)

theorem mem_byStart (row : Recording) : row ∈ byStart rows ↔ row ∈ rows :=
  (List.perm_insertionSort _ _).mem_iff

/-- `update({ where: { id } })`: nothing is updated when no row has the id. -/
def updateRow (rows : List Recording) (id : Text) (change : Recording → Recording) :
    List Recording :=
  rows.map fun row => if row.id = id then change row else row

theorem mem_updateRow (id : Text) (change : Recording → Recording) (row : Recording)
    (member : row ∈ updateRow rows id change) :
    row ∈ rows ∨ ∃ old ∈ rows, old.id = id ∧ row = change old := by
  obtain ⟨old, inRows, rfl⟩ := List.mem_map.mp member
  by_cases same : old.id = id
  · rw [if_pos same]
    exact Or.inr ⟨old, inRows, same, rfl⟩
  · rw [if_neg same]
    exact Or.inl inRows

theorem updateRow_ids (id : Text) (change : Recording → Recording)
    (keeps : ∀ row, (change row).id = row.id) :
    (updateRow rows id change).map Recording.id = rows.map Recording.id := by
  rw [updateRow, List.map_map]
  apply List.map_congr_left
  intro row _
  by_cases same : row.id = id
  · simp only [Function.comp_apply, if_pos same, keeps]
  · simp only [Function.comp_apply, if_neg same]

theorem updateRow_paths (id : Text) (change : Recording → Recording)
    (keeps : ∀ row, (change row).filePath = row.filePath) :
    (updateRow rows id change).map Recording.filePath = rows.map Recording.filePath := by
  rw [updateRow, List.map_map]
  apply List.map_congr_left
  intro row _
  by_cases same : row.id = id
  · simp only [Function.comp_apply, if_pos same, keeps]
  · simp only [Function.comp_apply, if_neg same]

end DracVms.Database
