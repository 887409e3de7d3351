import DracVms.Library.FirstBest
import DracVms.Library.Json

namespace DracVms.WriteProgress

open Json (Text)
open FirstBest (best best_eq_none best_unbeaten)

/-- The environment, a value that is not finite left out. -/
structure Config where
  writeStallSeconds : Option ℚ
  writeStallGraceSeconds : Option ℚ

def getWriteStallSeconds (config : Config) : ℚ :=
  match config.writeStallSeconds with
  | some configured => max 20 configured
  | none => 45

def getWriteStallGraceSeconds (config : Config) (stallThresholdSeconds : ℚ) : ℚ :=
  max 30 (max stallThresholdSeconds (config.writeStallGraceSeconds.getD 90))

/-- Size and mtime are missing when the file is gone by the time it is asked for them. -/
structure DirEntry where
  name : Text
  isFile : Bool
  stat : Option (ℕ × ℚ)

structure Candidate where
  filePath : Text
  sizeBytes : ℕ
  mtimeMs : ℚ

def listSegmentWriteCandidates (outputDir : Text) (entries : List DirEntry) : List Candidate :=
  entries.filterMap fun entry =>
    if entry.isFile = true ∧ ".ts".toList <:+ entry.name then
      entry.stat.map fun stat => ⟨outputDir ++ '/' :: entry.name, stat.1, stat.2⟩
    else none

structure WriteSample where
  file : Candidate
  observedAtMs : ℚ

/-- The process that records, with no start when its date is invalid. -/
structure ActiveRecording where
  outputDir : Text
  startedAtMs : Option ℚ
  writeSample : Option WriteSample

inductive Reason
  | noActiveProcess
  | startupGrace
  | noSegmentFile
  | probeFailed
  | growing
  | writing
  | stalled
  deriving DecidableEq

structure RecordingWriteProgress where
  applicable : Bool
  filePath : Option Text
  sizeBytes : Option ℕ
  secondsSinceLastWrite : Option ℤ
  stallThresholdSeconds : ℚ
  graceSeconds : ℚ
  stalled : Bool
  reason : Reason

/-- A clock value and the directory at that time, none when it cannot be read. -/
structure Probe where
  nowMs : ℚ
  entries : Option (List DirEntry)

/-- The start grace is over; an invalid date stays in it. -/
def graceOver (config : Config) (startedAtMs : Option ℚ) (nowMs : ℚ) : Bool :=
  startedAtMs.any fun started => decide
    (getWriteStallGraceSeconds config (getWriteStallSeconds config) ≤ (nowMs - started) / 1000)

abbrev newer (item newest : Candidate) : Prop := newest.mtimeMs < item.mtimeMs

/-- The file that was being written has more bytes than at the last observation. -/
def grew (previous : Option WriteSample) (current : Candidate) : Bool :=
  previous.any fun sample =>
    sample.file.filePath = current.filePath && sample.file.sizeBytes < current.sizeBytes

def getRecordingWriteProgress (config : Config) (active : Option ActiveRecording) (probe : Probe) :
    RecordingWriteProgress × Option ActiveRecording :=
  let stallThresholdSeconds := getWriteStallSeconds config
  let graceSeconds := getWriteStallGraceSeconds config stallThresholdSeconds
  let base (applicable : Bool) (reason : Reason) : RecordingWriteProgress :=
    ⟨applicable, none, none, none, stallThresholdSeconds, graceSeconds, false, reason⟩
  match active with
  | none => (base false .noActiveProcess, none)
  | some state =>
    if graceOver config state.startedAtMs probe.nowMs = false then
      (base true .startupGrace, some state)
    else
      match probe.entries with
      | none => (base true .probeFailed, some state)
      | some entries =>
        match best newer (listSegmentWriteCandidates state.outputDir entries) with
        | none => (base true .noSegmentFile, some state)
        | some current =>
          let secondsSinceLastWrite := max 0 ((probe.nowMs - current.mtimeMs) / 1000)
          let observed (stalled : Bool) (reason : Reason) : RecordingWriteProgress :=
            ⟨true, some current.filePath, some current.sizeBytes,
              some ⌊secondsSinceLastWrite + 1 / 2⌋, stallThresholdSeconds, graceSeconds, stalled,
              reason⟩
          (if grew state.writeSample current then observed false .growing
            else if stallThresholdSeconds ≤ secondsSinceLastWrite then observed true .stalled
            else observed false .writing,
            some { state with writeSample := some ⟨current, probe.nowMs⟩ })

section Run

variable (config : Config) (outputDir : Text) (startedAtMs : Option ℚ)

/-- What a process has in store after these probes. -/
def run (probes : List Probe) : Option ActiveRecording :=
  probes.foldl (fun active probe => (getRecordingWriteProgress config active probe).2)
    (some ⟨outputDir, startedAtMs, none⟩)

def accuses (before : List Probe) (probe : Probe) : Prop :=
  (getRecordingWriteProgress config (run config outputDir startedAtMs before) probe).1.stalled = true

def sample (probe : Probe) : Option (List Candidate) :=
  probe.entries.map (listSegmentWriteCandidates outputDir)

def listed (probe : Probe) : List Candidate := (sample outputDir probe).getD []

/-- The file that a probe after the start grace takes for the one being written. -/
def judged (probe : Probe) : Option WriteSample :=
  if graceOver config startedAtMs probe.nowMs then
    (best newer (listed outputDir probe)).map (⟨·, probe.nowMs⟩)
  else none

def lastJudged (before : List Probe) : Option WriteSample :=
  (before.filterMap (judged config outputDir startedAtMs)).getLast?

/-- A file grew between two samples, the earlier one within the threshold before now. -/
def GrewWithin (before : List Probe) (probe : Probe) : Prop :=
  ∃ earlier later, [earlier, later].Sublist (before ++ [probe]) ∧
    (probe.nowMs - earlier.nowMs) / 1000 < getWriteStallSeconds config ∧
    ∃ file ∈ listed outputDir earlier, ∃ grown ∈ listed outputDir later,
      file.filePath = grown.filePath ∧ file.sizeBytes < grown.sizeBytes

/-- A file was rotated in or removed since the last sample. -/
def Rotated (before : List Probe) (probe : Probe) : Prop :=
  ∃ last ∈ (before.filterMap (sample outputDir)).getLast?,
    ¬ ∀ path, path ∈ last.map Candidate.filePath ↔
      path ∈ (listed outputDir probe).map Candidate.filePath

def Fresh (probe : Probe) : Prop :=
  ∃ file ∈ listed outputDir probe, (probe.nowMs - file.mtimeMs) / 1000 < getWriteStallSeconds config

/-- What an accusation must stand on. -/
structure Deserved (before : List Probe) (probe : Probe) : Prop where
  graceOver : graceOver config startedAtMs probe.nowMs = true
  unmodified : ¬ Fresh config outputDir probe
  still : ¬ GrewWithin config outputDir before probe
  unrotated : ¬ Rotated outputDir before probe

/-- What keeps a probe from accusing. -/
def Excused (before : List Probe) (probe : Probe) : Prop :=
  graceOver config startedAtMs probe.nowMs = false ∨ listed outputDir probe = [] ∨
    Fresh config outputDir probe ∨
    ∃ current ∈ best newer (listed outputDir probe),
      grew (lastJudged config outputDir startedAtMs before) current = true

theorem getWriteStallSeconds_pos : 0 < getWriteStallSeconds config := by
  unfold getWriteStallSeconds
  split
  · exact lt_max_of_lt_left (by norm_num)
  · norm_num

theorem step_sample (writeSample : Option WriteSample) (probe : Probe) :
    (getRecordingWriteProgress config (some ⟨outputDir, startedAtMs, writeSample⟩) probe).2 =
      some ⟨outputDir, startedAtMs,
        (judged config outputDir startedAtMs probe).or writeSample⟩ := by
  cases past : graceOver config startedAtMs probe.nowMs with
  | false => simp [getRecordingWriteProgress, judged, past]
  | true =>
    cases read : probe.entries with
    | none => simp [getRecordingWriteProgress, judged, listed, sample, past, read, best]
    | some entries =>
      cases newest : best newer (listSegmentWriteCandidates outputDir entries) <;>
        simp [getRecordingWriteProgress, judged, listed, sample, past, read, newest]

theorem run_eq (before : List Probe) : run config outputDir startedAtMs before =
    some ⟨outputDir, startedAtMs, lastJudged config outputDir startedAtMs before⟩ := by
  induction before using List.reverseRecOn with
  | nil => rfl
  | append_singleton before probe ih =>
    rw [run] at ih ⊢
    rw [List.foldl_append, ih, List.foldl_cons, List.foldl_nil, step_sample, lastJudged, lastJudged,
      List.filterMap_append, List.getLast?_append]
    cases last : judged config outputDir startedAtMs probe <;> simp [last]

theorem newest_old_iff {probe : Probe} {current : Candidate}
    (newest : best newer (listed outputDir probe) = some current) : ¬ Fresh config outputDir probe ↔
      getWriteStallSeconds config ≤ max 0 ((probe.nowMs - current.mtimeMs) / 1000) := by
  have : Std.Irrefl newer := ⟨fun file => lt_irrefl file.mtimeMs⟩
  have : IsTrans Candidate newer := ⟨fun _ _ _ first second => lt_trans second first⟩
  obtain ⟨inside, unbeaten⟩ := best_unbeaten newer newest
  rw [le_max_iff, or_iff_right (getWriteStallSeconds_pos config).not_ge]
  constructor
  · intro stale
    by_contra short
    exact stale ⟨current, inside, lt_of_not_ge short⟩
  · rintro old ⟨file, fileListed, fresh⟩
    have later := not_lt.mp (unbeaten file fileListed)
    linarith

variable {config outputDir startedAtMs}

theorem accuses_iff (before : List Probe) (probe : Probe) :
    accuses config outputDir startedAtMs before probe ↔
      ¬ Excused config outputDir startedAtMs before probe := by
  rw [accuses, run_eq, Excused]
  cases past : graceOver config startedAtMs probe.nowMs with
  | false => simp [getRecordingWriteProgress, past]
  | true =>
    cases read : probe.entries with
    | none => simp [getRecordingWriteProgress, listed, sample, past, read]
    | some entries =>
      have files : listed outputDir probe = listSegmentWriteCandidates outputDir entries := by
        rw [listed, sample, read, Option.map_some, Option.getD_some]
      cases newest : best newer (listSegmentWriteCandidates outputDir entries) with
      | none =>
        have empty := files.trans ((best_eq_none newer).mp newest)
        simp [getRecordingWriteProgress, past, read, newest, empty]
      | some current =>
        rw [← files] at newest
        have some_ : listed outputDir probe ≠ [] := by
          intro empty
          rw [(best_eq_none newer).mpr empty] at newest
          cases newest
        cases grown : grew (lastJudged config outputDir startedAtMs before) current with
        | true => simp [getRecordingWriteProgress, past, read, ← files, newest, grown]
        | false =>
          by_cases idle : getWriteStallSeconds config ≤
            max 0 ((probe.nowMs - current.mtimeMs) / 1000)
          · have stale := (newest_old_iff config outputDir newest).mpr idle
            simp [getRecordingWriteProgress, past, read, ← files, newest, grown, some_, idle, stale,
              -le_sup_iff]
          · have fresh := not_not.mp (mt (newest_old_iff config outputDir newest).mp idle)
            simp [getRecordingWriteProgress, past, read, ← files, newest, grown, idle, fresh,
              -le_sup_iff]

/-- The accusation is deserved exactly when growth and rotation never come without an excuse. -/
theorem deserved_iff (config : Config) (outputDir : Text) (startedAtMs : Option ℚ)
    (before : List Probe) (probe : Probe) : (accuses config outputDir startedAtMs before probe →
        Deserved config outputDir startedAtMs before probe) ↔
      (GrewWithin config outputDir before probe ∨ Rotated outputDir before probe →
        Excused config outputDir startedAtMs before probe) := by
  rw [accuses_iff]
  constructor
  · rintro deserved change
    by_contra bare
    obtain ⟨-, -, still, unrotated⟩ := deserved bare
    exact change.elim still unrotated
  · intro excused bare
    have unchanged := mt excused bare
    simp only [Excused, not_or, Bool.not_eq_false] at bare
    exact ⟨bare.1, bare.2.2.1, fun grown => unchanged (Or.inl grown),
      fun rotated => unchanged (Or.inr rotated)⟩

end Run

/-- A closed segment that was removed leaves one of an earlier run behind. -/
theorem removal_accused : ∃ before probe, ¬ (accuses ⟨none, none⟩ "h".toList (some 0) before probe →
      Deserved ⟨none, none⟩ "h".toList (some 0) before probe) := by
  let left : DirEntry := ⟨"r.ts".toList, true, some (5, 100000)⟩
  let live : DirEntry := ⟨"v.ts".toList, true, some (10, 199000)⟩
  refine ⟨[⟨200000, some [left, live]⟩], ⟨230000, some [left]⟩, ?_⟩
  intro deserved
  apply (deserved (by unfold accuses; decide +kernel)).unrotated
  refine ⟨listSegmentWriteCandidates "h".toList [left, live], rfl, ?_⟩
  intro same
  exact absurd ((same "h/v.ts".toList).mp (by decide +kernel)) (by decide +kernel)

end DracVms.WriteProgress
