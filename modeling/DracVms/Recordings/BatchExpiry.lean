import DracVms.Library.JsString
import DracVms.Recordings.Protection
import DracVms.Recordings.RetentionPolicy

namespace DracVms.Retention

open Json Where Protection
open Database (ExportedClip)
open JsString (unitsLe)

/-- What a camera, and the group that it may follow, say about retention. -/
structure CameraRow where
  id : Text
  retentionDays : Option Int
  retentionFollowsGroup : Bool
  grupoRetentionDays : Option Int

/-- Never less than a day: zero would delete everything in the next sweep. -/
def retencaoEfetiva (camera : CameraRow) (globalDays : Int) : Int :=
  let global := max 1 globalDays
  let escolhido := if camera.retentionFollowsGroup then camera.grupoRetentionDays
    else camera.retentionDays
  match escolhido with
  | none => global
  | some dias => if dias < 1 then global else dias

/-- `byDays`: the cameras of each number of days, in the order in which they are met. -/
def agrupar (byDays : List (Int × List Text)) (days : Int) (id : Text) : List (Int × List Text) :=
  if days ∈ byDays.map Prod.fst then
    byDays.map fun bucket => if bucket.1 = days then (bucket.1, bucket.2 ++ [id]) else bucket
  else byDays ++ [(days, [id])]

def porDias (cameras : List CameraRow) (globalDays : Int) : List (Int × List Text) :=
  cameras.foldl (fun byDays camera => agrupar byDays (retencaoEfetiva camera globalDays) camera.id) []

/-- The last group holds the recordings whose camera is gone, which would never expire without it. -/
def loadRetentionGroups (cameras : List CameraRow) (globalDays : Int) : List RetentionGroup :=
  (porDias cameras globalDays).map (fun bucket => ⟨bucket.1, .oneOf bucket.2⟩) ++
    [⟨globalDays, if cameras = [] then .every else .noneOf (cameras.map CameraRow.id)⟩]

/-- `readBatchLimits` takes no batch of less than one. -/
structure BatchLimits where
  batchSize : Nat
  maxPerCycle : Nat
  positive : 1 ≤ batchSize

/-- The tables. Ids are unique in `Recording`. -/
structure Acervo where
  recordings : List ExpiringRecording
  clips : List ExportedClip
  distinct : (recordings.map ExpiringRecording.id).Nodup

/-- The row goes, and with it the clips that were cut from it. -/
def Acervo.semGravacao (acervo : Acervo) (id : Text) : Acervo where
  recordings := acervo.recordings.filter fun row => row.id ≠ id
  clips := acervo.clips.filter fun clip => clip.sourceRecordingId ≠ id
  distinct := acervo.distinct.sublist (List.filter_sublist.map _)

/-- What became of a recording when the loop came to it. -/
inductive Evento where
  | foraDaRegra
  | protegida
  | simulada
  | recusada
  | apagada
  | falhou
  deriving DecidableEq

/-- `deleteRecording` returns false for a protected recording, and for one with a protected clip. -/
def recusa (protection : ProtectionSets) (clips : List ExportedClip) (id : Text) : Bool :=
  decide (id ∈ protection.recordingIds) ||
    clips.any fun clip => decide (clip.sourceRecordingId = id) && decide (clip.id ∈ protection.clipIds)

structure CleanupResult where
  recordingsDeleted : Nat
  recordingsWouldDelete : Nat
  wouldFreeBytes : Int
  motionRetained : Nat

/-- The variables of the loops. `eventos` is what happened, in order. -/
structure Passagem where
  acervo : Acervo
  result : CleanupResult
  budget : Nat
  skip : Nat
  hitCap : Bool
  eventos : List (Evento × Text)

section Expire

-- `falha` says which deletions throw.
variable (motionScoreSupported : Bool) (policy : TwoTierPolicy) (protection : ProtectionSets)
  (falha : Text → Bool) (limits : BatchLimits) (now : Int)

def Passagem.registrar (s : Passagem) (evento : Evento) (id : Text) : Passagem :=
  { s with eventos := s.eventos ++ [(evento, id)] }

def Passagem.deixar (s : Passagem) : Passagem := { s with skip := s.skip + 1 }

/-- One recording of a page. -/
def visitar (window : RetentionWindow) (s : Passagem) (recording : ExpiringRecording) : Passagem :=
  if !isExpiredByAge recording.startedAt
      (readMotionScore (scoreRead motionScoreSupported recording)) now window then
    s.deixar.registrar .foraDaRegra recording.id
  else if policy.enabled && policy.dryRun then
    if recording.id ∈ protection.recordingIds then s.deixar.registrar .protegida recording.id
    else
      { s.deixar.registrar .simulada recording.id with
        result := { s.result with
          recordingsWouldDelete := s.result.recordingsWouldDelete + 1
          wouldFreeBytes := s.result.wouldFreeBytes + recording.sizeBytes.getD 0 }
        budget := s.budget - 1 }
  else if recusa protection s.acervo.clips recording.id then
    s.deixar.registrar .recusada recording.id
  else if falha recording.id then s.deixar.registrar .falhou recording.id
  else
    { s.registrar .apagada recording.id with
      acervo := s.acervo.semGravacao recording.id
      result := { s.result with recordingsDeleted := s.result.recordingsDeleted + 1 }
      budget := s.budget - 1 }

/-- By start, then by id: no two recordings are equal in it. -/
def ordem (a b : ExpiringRecording) : Prop :=
  a.startedAt < b.startedAt ∨ a.startedAt = b.startedAt ∧ unitsLe a.id b.id = true

instance : DecidableRel ordem := fun _ _ => inferInstanceAs (Decidable (_ ∨ _))

def ordenadas (condition : Condition ExpiringRecording) (rows : List ExpiringRecording) :
    List ExpiringRecording :=
  (select condition rows).insertionSort ordem

def findMany (condition : Condition ExpiringRecording) (skip take : Nat)
    (rows : List ExpiringRecording) : List ExpiringRecording :=
  ((ordenadas condition rows).drop skip).take take

/-- The `for (;;)` over the pages of one group, unless the fuel runs out. -/
def paginas (condition : Condition ExpiringRecording) (window : RetentionWindow) :
    Nat → Passagem → Option Passagem
  | 0, _ => none
  | fuel + 1, s =>
    if s.budget = 0 then some { s with hitCap := true }
    else
      let take := min limits.batchSize s.budget
      let recordings := findMany condition s.skip take s.acervo.recordings
      if recordings = [] then some s
      else
        let visited :=
          recordings.foldl (visitar motionScoreSupported policy protection falha now window) s
        if recordings.length < take then some visited
        else paginas condition window fuel visited

/-- What the group adds to `motionRetained`. -/
def contarRetidas (group : RetentionGroup) (window : RetentionWindow) (s : Passagem) : Passagem :=
  if policy.enabled then
    { s with result := { s.result with
        motionRetained := s.result.motionRetained +
          (select (motionRetainedWhere motionScoreSupported group window now)
            s.acervo.recordings).length } }
  else s

/-- The `for` over the groups. -/
def expirarGrupos (fuel : Nat) : List RetentionGroup → Passagem → Option Passagem
  | [], s => some s
  | group :: rest, s =>
    if s.budget = 0 then some { s with hitCap := true }
    else
      let window := resolveRetentionWindow group.days policy
      let counted := contarRetidas motionScoreSupported policy now group window s
      (paginas motionScoreSupported policy protection falha limits now
        (buildExpiryWhere motionScoreSupported group window now) window fuel
        { counted with skip := 0 }).bind fun t => expirarGrupos fuel rest t

def expireRecordingsInBatches (fuel : Nat) (groups : List RetentionGroup) (acervo : Acervo)
    (result : CleanupResult) : Option Passagem :=
  expirarGrupos motionScoreSupported policy protection falha limits now fuel groups
    ⟨acervo, result, limits.maxPerCycle, 0, false, []⟩

end Expire

end DracVms.Retention
