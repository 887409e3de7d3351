import DracVms.Database.Schema

namespace DracVms.Protection

open Json Database

structure ProtectionSets where
  recordingIds : List Text
  clipIds : List Text
  eventIds : List Text

/-- The fields of a metadata object. Anything else has none of the fields that are asked for. -/
def camposDe : Option Metadata → List (Text × Metadata)
  | some (.object fields) => fields
  | _ => []

def textoDe : Metadata → Option Text
  | .atom (.string text) => some text
  | _ => none

/-- `if (typeof value[key] === 'string')` -/
def texto (value : List (Text × Metadata)) (key : Text) : List Text :=
  ((field value key).bind textoDe).toList

/-- `if (Array.isArray(value[key]))`, and the texts in it. -/
def textos (value : List (Text × Metadata)) (key : Text) : List Text :=
  match field value key with
  | some (.array items) => items.filterMap textoDe
  | _ => []

def enabled (value : List (Text × Metadata)) : Bool :=
  match field value "enabled".toList with
  | some (.atom (.bool b)) => b
  | some (.atom (.number n)) => decide (n = 1)
  | some (.atom (.string text)) => decide (text = "true".toList)
  | _ => false

def legalHold : Text := "legal_hold".toList

/-- The rows in descending order of creation, one for each investigation. -/
def latestHoldByInvestigation (items : List InvestigationItem) : List InvestigationItem :=
  let holdRows := (items.filter fun item => item.type = legalHold).insertionSort
    fun a b => b.createdAt ≤ a.createdAt
  holdRows.foldl (fun latest row =>
    if latest.any fun seen => decide (seen.investigationId = row.investigationId) then latest
    else latest ++ [row]) []

def holdSets (item : InvestigationItem) : ProtectionSets :=
  let value := camposDe item.metadata
  if enabled value then
    ⟨textos value "recordingIds".toList, textos value "clipIds".toList,
      textos value "eventIds".toList⟩
  else ⟨[], [], []⟩

/-- `if (id)`: an empty text is no id. -/
def presente (id : Option Text) : List Text := id.toList.filter (· ≠ [])

def evidenceSets (item : InvestigationItem) : ProtectionSets :=
  let value := camposDe item.metadata
  { recordingIds := presente item.recordingId ++ texto value "recordingId".toList ++
      textos value "recordingIds".toList
    clipIds := texto value "clipId".toList ++ textos value "clipIds".toList
    eventIds := presente item.eventId ++ texto value "eventId".toList }

def unir (sets : List ProtectionSets) : ProtectionSets where
  recordingIds := sets.flatMap ProtectionSets.recordingIds
  clipIds := sets.flatMap ProtectionSets.clipIds
  eventIds := sets.flatMap ProtectionSets.eventIds

/-- What the first query of `getProtectionSets` protects. -/
def holds (items : List InvestigationItem) : ProtectionSets :=
  unir ((latestHoldByInvestigation items).map holdSets)

/-- What its second query protects. -/
def evidence (items : List InvestigationItem) : ProtectionSets :=
  unir ((items.filter fun item => item.type ≠ legalHold).map evidenceSets)

/-- Its third query: the recordings that the protected clips were cut from. -/
def sourceRecordings (clips : List ExportedClip) (clipIds : List Text) : List Text :=
  (clips.filter fun clip => clip.id ∈ clipIds).map ExportedClip.sourceRecordingId

def getProtectionSets (db : Tables) : ProtectionSets :=
  let sets := unir [holds db.investigationItems, evidence db.investigationItems]
  { sets with
    recordingIds := sets.recordingIds ++ sourceRecordings db.exportedClips sets.clipIds }

end DracVms.Protection
