import DracVms.Recordings.DiskUsage

namespace DracVms.RetentionCycle

open Json Database Where Protection
open Retention (BatchLimits CameraRow ExpiringRecording RetentionGroup RetentionWindow
  TwoTierPolicy)
open DiskUsage (Modo)

/-- A row of `Recording`, with the column that only the expiry reads. -/
structure Row extends Recording where
  motionScore : Option Int

def Row.expiring (row : Row) : ExpiringRecording :=
  ⟨row.id, row.cameraId, row.filePath, row.startedAt, row.sizeBytes, row.cloudKey,
    row.cloudStorageId, row.motionScore⟩

structure Acervo where
  recordings : List Row
  investigationItems : List InvestigationItem
  exportedClips : List ExportedClip
  cameras : List CameraRow

def Acervo.tables (acervo : Acervo) : Tables :=
  ⟨acervo.recordings.map Row.toRecording, acervo.investigationItems, acervo.exportedClips⟩

def Acervo.isProtected (acervo : Acervo) (id : Text) : Bool :=
  decide (id ∈ (getProtectionSets acervo.tables).recordingIds)

def Acervo.has (acervo : Acervo) (id : Text) : Bool :=
  acervo.recordings.any fun row => decide (row.id = id)

/-- The transaction of `deleteRecording`: the clips that it has read go, then the row, and with it
every clip that was cut from it. -/
def Acervo.semGravacao (acervo : Acervo) (id : Text) (clips : List Text) : Acervo :=
  { acervo with
    recordings := acervo.recordings.filter fun row => row.id ≠ id
    exportedClips := acervo.exportedClips.filter fun clip =>
      clip.id ∉ clips ∧ clip.sourceRecordingId ≠ id }

def Acervo.semLocal (acervo : Acervo) (id : Text) (agora : Instant) : Acervo :=
  { acervo with
    recordings := acervo.recordings.map fun row =>
      if row.id = id then { row with localDeletedAt := some agora } else row }

/-- What the settings and the environment say when a cycle starts, and the clock. -/
structure Config where
  motionScoreSupported : Bool
  policy : TwoTierPolicy
  limits : BatchLimits
  globalDays : Int
  nuvemAtiva : Bool
  now : Instant

/-- The variables of `expireRecordingsInBatches`: the groups from the current one on, the window of
that group, the recordings of the page that are left, and whether the page was the last one. -/
structure Pass where
  groups : List RetentionGroup
  window : RetentionWindow
  budget : Nat
  skip : Nat
  page : List ExpiringRecording
  last : Bool

/-- The variables of `checkDiskUsage`. -/
structure Guardian where
  iterations : Nat
  modo : Modo
  oldest : List Recording
  batchDeleted : Nat

/-- The loop that has called `deleteRecording`. -/
inductive Loop where
  | expiry (pass : Pass)
  | guardian (guard : Guardian)

/-- What a cycle waits for: the queries of `getProtectionSets`, those of the expiry, the readings of
the disk, the queries of the guardian, and the clips and the transaction of `deleteRecording`. -/
inductive Phase where
  | idle
  | holds
  | evidence
  | clips
  | groups
  | page (pass : Pass)
  | visit (pass : Pass)
  | percent (iterations : Nat)
  | naNuvem (iterations : Nat)
  | porIdade (iterations : Nat)
  | each (guard : Guardian)
  | clipsOf (loop : Loop) (id : Text)
  | remove (loop : Loop) (id : Text) (clips : List Text)

/-- The tables and a cycle. `deleted` is not in the code: the recordings that cycles have deleted,
and whether they were protected when their rows went. -/
structure System where
  acervo : Acervo
  config : Config
  protection : ProtectionSets
  phase : Phase
  deleted : List (Text × Bool)

/-- `edit` is whatever others, and the expiry of the clips, do to the tables. `resume` says whether
the query that a cycle waits for answers, or, of the disk, whether its readings ask for a batch and
whether a file went. -/
inductive Event where
  | edit (acervo : Acervo)
  | start (config : Config)
  | resume (ok : Bool)

def System.at (s : System) (phase : Phase) : System := { s with phase := phase }

def Pass.leave (pass : Pass) : Pass := { pass with skip := pass.skip + 1 }

/-- What the loops do when `deleteRecording` has not deleted. -/
def Loop.kept : Loop → Phase
  | .expiry pass => .visit pass.leave
  | .guardian guard => .each guard

def Loop.deleted : Loop → Phase
  | .expiry pass => .visit { pass with budget := pass.budget - 1 }
  | .guardian guard => .each { guard with batchDeleted := guard.batchDeleted + 1 }

def iteracoes : Nat := 100

/-- The next page of the current group, or the next group, or the end of the expiry. -/
def nextPage (s : System) (pass : Pass) : Phase :=
  match pass.groups with
  | [] => .percent iteracoes
  | group :: rest =>
    if pass.budget = 0 then .percent iteracoes
    else
      let window := Retention.resolveRetentionWindow group.days s.config.policy
      let take := min s.config.limits.batchSize pass.budget
      let recordings := Retention.findMany
        (Retention.buildExpiryWhere s.config.motionScoreSupported group window s.config.now)
        pass.skip take (s.acervo.recordings.map Row.expiring)
      if recordings = [] then .page { pass with groups := rest, skip := 0 }
      else .visit { pass with
        window := window, page := recordings, last := decide (recordings.length < take) }

/-- `deleteRecording`, up to its first query. -/
def deleteRecording (s : System) (loop : Loop) (id : Text) : Phase :=
  if id ∈ s.protection.recordingIds then loop.kept else .clipsOf loop id

def visitRecording (s : System) (pass : Pass) : Phase :=
  match pass.page with
  | [] => .page (if pass.last then { pass with groups := pass.groups.tail, skip := 0 } else pass)
  | recording :: rest =>
    let left := { pass with page := rest }
    let score := Retention.readMotionScore
      (Retention.scoreRead s.config.motionScoreSupported recording)
    if !Retention.isExpiredByAge recording.startedAt score s.config.now pass.window then
      .visit left.leave
    else if s.config.policy.enabled && s.config.policy.dryRun then
      if recording.id ∈ s.protection.recordingIds then .visit left.leave
      else .visit { left.leave with budget := left.budget - 1 }
    else deleteRecording s (.expiry left) recording.id

/-- One recording of a batch of the guardian. -/
def eachRecording (s : System) (guard : Guardian) (ok : Bool) : System :=
  match guard.oldest with
  | [] => s.at (if guard.batchDeleted = 0 then .idle else .percent guard.iterations)
  | recording :: rest =>
    let left := { guard with oldest := rest }
    match guard.modo with
    | .liberar =>
      { s with
        acervo := s.acervo.semLocal recording.id s.config.now
        phase := if ok then Loop.deleted (.guardian left) else Loop.kept (.guardian left) }
    | .apagar => s.at (deleteRecording s (.guardian left) recording.id)

def oldestOf (s : System) (condition : Condition Recording) : List Recording :=
  (byStart (select condition s.acervo.tables.recordings)).take DiskUsage.loteDe

def resume (s : System) (ok : Bool) : Option System :=
  match s.phase with
  | .idle => none
  | .holds => some (if ok then
      { s with protection := holds s.acervo.investigationItems, phase := .evidence }
      else s.at .idle)
  | .evidence => some (if ok then
      { s with
        protection := unir [s.protection, evidence s.acervo.investigationItems]
        phase := .clips }
      else s.at .idle)
  | .clips => some (if ok then
      { s with
        protection := { s.protection with
          recordingIds := s.protection.recordingIds ++
            sourceRecordings s.acervo.exportedClips s.protection.clipIds }
        phase := .groups }
      else s.at .idle)
  | .groups => some (s.at (if ok then
      .page ⟨Retention.loadRetentionGroups s.acervo.cameras s.config.globalDays, ⟨0, 0⟩,
        s.config.limits.maxPerCycle, 0, [], false⟩
      else .idle))
  | .page pass => some (s.at (if ok then nextPage s pass else .idle))
  | .visit pass => some (s.at (visitRecording s pass))
  | .percent iterations => some (s.at (
      if !ok || iterations = 0 then .idle
      else if s.config.nuvemAtiva then .naNuvem (iterations - 1)
      else .porIdade (iterations - 1)))
  | .naNuvem iterations =>
    let oldest := oldestOf s (DiskUsage.naNuvem s.protection)
    some (s.at (
      if !ok then .idle
      else if oldest = [] then .porIdade iterations
      else .each ⟨iterations, .liberar, oldest, 0⟩))
  | .porIdade iterations =>
    let oldest := oldestOf s (DiskUsage.porIdade s.protection s.config.nuvemAtiva)
    some (s.at (if !ok || oldest = [] then .idle else .each ⟨iterations, .apagar, oldest, 0⟩))
  | .each guard => some (eachRecording s guard ok)
  | .clipsOf loop id =>
    let clips := s.acervo.exportedClips.filter fun clip => clip.sourceRecordingId = id
    some (s.at (
      if !ok || clips.any fun clip => decide (clip.id ∈ s.protection.clipIds) then loop.kept
      else .remove loop id (clips.map ExportedClip.id)))
  | .remove loop id clips => some (
      if ok && s.acervo.has id then
        { s with
          acervo := s.acervo.semGravacao id clips
          phase := loop.deleted
          deleted := s.deleted ++ [(id, s.acervo.isProtected id)] }
      else s.at loop.kept)

def step (s : System) : Event → Option System
  | .edit acervo => some { s with acervo := acervo }
  | .start config =>
    match s.phase with
    | .idle => some { s with config := config, phase := .holds }
    | _ => none
  | .resume ok => resume s ok

end DracVms.RetentionCycle
