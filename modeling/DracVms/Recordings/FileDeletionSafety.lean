import DracVms.Recordings.FileDeletionRecovery

namespace DracVms.FileDeletion

open List Json Runs

section Safety

variable (format : NumberFormat) (one : format.Number) [DecidableEq format.Number] (root : Path)
  (journal : DeletionJournal)

/-- The disk after the recovery of a boot, which asks the database for the guard rows. -/
def recover (rows : List DeletionGuard) (disk : Disk) : Disk :=
  (recoverPendingFileDeletions format one root (fun row => decide (row ∈ rows)) disk).disk

/-- What a boot must make of a deletion that was cut short in this state. -/
structure Recovers (before : Disk) (s : State) : Prop where
  restores : (∃ row ∈ journal.guards, row ∈ s.rows) →
    (recover format one root s.rows s.disk).files = before.files
  cleans : (∀ row ∈ journal.guards, row ∉ s.rows) →
    (∀ p, operationRoot root journal.operationId <+: p →
      (recover format one root s.rows s.disk).files p = none) ∧
    ∀ p, ¬ operationRoot root journal.operationId <+: p →
      (recover format one root s.rows s.disk).files p = s.disk.files p
  outside : ∀ p, ¬ root <+: p → s.disk.files p = before.files p ∧
    (recover format one root s.rows s.disk).files p = before.files p
  settled : recover format one root s.rows (recover format one root s.rows s.disk) =
    recover format one root s.rows s.disk

/-- Wherever the deletion is cut short, the next boot recovers, if no clean-up takes the journal
before the rest of the trash. -/
def CrashSafe (before : Disk) : Prop :=
  ∀ rows steps s,
    Allowed (step format one root journal) (JournalLast root journal) ⟨before, rows, .begun⟩ steps →
    run (step format one root journal) ⟨before, rows, .begun⟩ steps = some s →
    Recovers format one root journal before s

variable {format one root journal}

section

variable (rows : List DeletionGuard) (disk : Disk)

theorem recover_empty (operations : disk.operations = []) :
    recover format one root rows disk = disk := by
  rw [recover, recoverPendingFileDeletions, operations]
  rfl

theorem recover_single (operationId : Text) (operations : disk.operations = [operationId]) :
    recover format one root rows disk =
      (recoverOperation format one root (fun row => decide (row ∈ rows)) ⟨disk, 0, 0, 0, 0⟩
        operationId).disk := by
  rw [recover, recoverPendingFileDeletions, operations]
  rfl

theorem recover_unreadable (operationId : Text) (operations : disk.operations = [operationId])
    (unreadable : (disk.files (journalPath root operationId)).bind (readJournal format one root
      operationId) = none) :
    recover format one root rows disk = disk := by
  rw [recover_single rows disk operationId operations]
  simp only [recoverOperation, unreadable]

theorem recover_readable (operationId raw : Text) (operations : disk.operations = [operationId])
    (read : ReadJournal) (written : disk.files (journalPath root operationId) = some raw)
    (readable : readJournal format one root operationId raw = some read) :
    recover format one root rows disk =
      if read.guards.any (fun row => decide (row ∈ rows)) then
        (restoreJournal root operationId read.entries disk).1
      else disk.removeOperation root operationId := by
  rw [recover_single rows disk operationId operations]
  simp only [recoverOperation, written, Option.bind_some, readable]
  split
  · split <;> rfl
  · rfl

end

variable {files : Path → Option Text}

omit [DecidableEq format.Number] in
theorem Midway.restoreJournal {disk : Disk} (placed : Placed root journal)
    (fresh : ∀ p, operationRoot root journal.operationId <+: p → files p = none)
    (midway : Midway format one root journal files disk) :
    (restoreJournal root journal.operationId journal.entries disk).1.files = files ∧
      (FileDeletion.restoreJournal root journal.operationId journal.entries disk).1.operations =
        [] := by
  obtain ⟨after, complete, back⟩ := midway.restoreEntries placed journal.entries.reverse disk false
    (fun entry member => mem_reverse.mp member)
  unfold FileDeletion.restoreJournal
  simp only [complete, Bool.false_eq_true, if_false]
  refine ⟨after.files_eq fresh ?_, removeOperation_single _ after.operations⟩
  intro entry member
  exact back entry member (Or.inl (mem_reverse.mpr member))

/-- Once no guard row is left, a boot that reads the journal takes all that is in the directory. -/
theorem recovers_cleaned {before : Disk} {s : State}
    (readable : readJournal format one root journal.operationId (journalText format one journal) =
      some ⟨journal.guards, journal.entries⟩)
    (operations : s.disk.operations = [journal.operationId])
    (written : s.disk.files (journalPath root journal.operationId) =
      some (journalText format one journal))
    (deleted : ∀ row ∈ journal.guards, row ∉ s.rows)
    (outside : ∀ p, ¬ root <+: p → s.disk.files p = before.files p) :
    Recovers format one root journal before s := by
  have asked : ¬ journal.guards.any (fun row => decide (row ∈ s.rows)) = true := by
    rw [any_eq_true]
    rintro ⟨row, member, kept⟩
    exact deleted row member (of_decide_eq_true kept)
  have result := recover_readable s.rows s.disk journal.operationId _ operations _ written readable
  rw [if_neg asked] at result
  refine ⟨?_, ?_, ?_, ?_⟩
  · rintro ⟨row, member, kept⟩
    exact absurd kept (deleted row member)
  · intro _
    rw [result]
    exact ⟨fun p inside => removeOperation_inside s.disk _ p inside,
      fun p beyond => removeOperation_outside s.disk _ p beyond⟩
  · intro p beyond
    rw [result, removeOperation_outside s.disk _ p fun inside =>
      beyond ((prefix_append root _).trans inside)]
    exact ⟨outside p beyond, outside p beyond⟩
  · rw [result]
    exact recover_empty s.rows _ (removeOperation_single s.disk operations)

/-- A boot that finds nothing in the directory changes nothing. -/
theorem recovers_emptied {before : Disk} {s : State}
    (unchanged : recover format one root s.rows s.disk = s.disk)
    (deleted : ∀ row ∈ journal.guards, row ∉ s.rows)
    (inside : ∀ p, operationRoot root journal.operationId <+: p → s.disk.files p = none)
    (outside : ∀ p, ¬ root <+: p → s.disk.files p = before.files p) :
    Recovers format one root journal before s := by
  refine ⟨?_, ?_, ?_, ?_⟩
  · rintro ⟨row, member, kept⟩
    exact absurd kept (deleted row member)
  · intro _
    rw [unchanged]
    exact ⟨inside, fun p _ => rfl⟩
  · intro p beyond
    rw [unchanged]
    exact ⟨outside p beyond, outside p beyond⟩
  · rw [unchanged, unchanged]

theorem Left.recovers (placed : Placed root journal) (before : Disk)
    (fresh : ∀ p, operationRoot root journal.operationId <+: p → before.files p = none)
    (readable : readJournal format one root journal.operationId (journalText format one journal) =
      some ⟨journal.guards, journal.entries⟩)
    (s : State) (left : Left format one root journal before.files s.disk s.rows) :
    Recovers format one root journal before s := by
  cases left with
  | untouched operations same =>
    have unchanged : recover format one root s.rows s.disk = s.disk := by
      rcases operations with none | one
      · exact recover_empty s.rows s.disk none
      · apply recover_unreadable s.rows s.disk journal.operationId one
        rw [same, fresh _ (journalPath_inside root _)]
        rfl
    refine ⟨?_, ?_, ?_, ?_⟩
    · intro _
      rw [unchanged, same]
    · intro _
      rw [unchanged]
      exact ⟨fun p inside => by rw [same, fresh p inside], fun p _ => rfl⟩
    · intro p _
      rw [unchanged, same]
      exact ⟨rfl, rfl⟩
    · rw [unchanged, unchanged]
  | midway midway =>
    by_cases survives : ∃ row ∈ journal.guards, row ∈ s.rows
    · have result := recover_readable s.rows s.disk journal.operationId _ midway.operations _
        midway.written readable
      have asked : journal.guards.any (fun row => decide (row ∈ s.rows)) = true := by
        rw [any_eq_true]
        obtain ⟨row, member, kept⟩ := survives
        exact ⟨row, member, decide_eq_true kept⟩
      rw [if_pos asked] at result
      obtain ⟨back, operations⟩ := midway.restoreJournal placed fresh
      refine ⟨?_, ?_, ?_, ?_⟩
      · intro _
        rw [result, back]
      · intro deleted
        obtain ⟨row, member, kept⟩ := survives
        exact absurd kept (deleted row member)
      · intro p beyond
        rw [result, back]
        exact ⟨midway.outside placed p beyond, rfl⟩
      · rw [result]
        exact recover_empty s.rows _ operations
    · apply recovers_cleaned readable midway.operations midway.written _ (midway.outside placed)
      intro row member kept
      exact survives ⟨row, member, kept⟩
  | swept deleted swept =>
    rcases swept.written with written | empty
    · exact recovers_cleaned readable swept.operations written deleted swept.outside
    · apply recovers_emptied _ deleted empty swept.outside
      apply recover_unreadable s.rows s.disk journal.operationId swept.operations
      rw [empty _ (journalPath_inside root _)]
      rfl
  | cleaned deleted operations inside outside =>
    exact recovers_emptied (recover_empty s.rows s.disk operations) deleted inside outside

omit [DecidableEq format.Number] in
theorem fits_begun (before : Disk) (idle : before.operations = []) (rows : List DeletionGuard) :
    Fits format one root journal before.files ⟨before, rows, .begun⟩ :=
  ⟨idle, rfl⟩

/-- Wherever an acceptable deletion stops, the next boot recovers. -/
theorem acceptable_crashSafe (placed : Placed root journal) (before : Disk)
    (idle : before.operations = [])
    (fresh : ∀ p, operationRoot root journal.operationId <+: p → before.files p = none)
    (readable : readJournal format one root journal.operationId (journalText format one journal) =
      some ⟨journal.guards, journal.entries⟩) :
    CrashSafe format one root journal before := by
  intro rows steps s allowed reached
  have fits := run_invariant _ (fits_preserved placed fresh) ⟨before, rows, .begun⟩ s steps
    allowed (fits_begun before idle rows) reached
  exact Left.recovers placed before fresh readable s fits.left

omit [DecidableEq format.Number] in
theorem run_moves (entries : List JournalEntry) (disk : Disk) (rows : List DeletionGuard) :
    ∃ moved, run (step format one root journal) ⟨disk, rows, .moving entries⟩
      (List.replicate entries.length (.move false)) = some ⟨moved, rows, .moving []⟩ := by
  induction entries generalizing disk with
  | nil => exact ⟨disk, rfl⟩
  | cons entry rest ih =>
    obtain ⟨moved, reached⟩ := ih (moveEntry root entry disk)
    refine ⟨moved, ?_⟩
    exact reached

def stagingSteps (journal : DeletionJournal) : List Step :=
  [.makeDirectory, .writeJournal false] ++
    (List.replicate journal.entries.length (.move false) ++ [.finishStaging false])

/-- The deletion that goes through, up to its clean-up. -/
def commitSteps (journal : DeletionJournal) : List Step :=
  stagingSteps journal ++ [.deleteRows true true]

omit [DecidableEq format.Number] in
theorem commitSteps_allowed (s : State) :
    Allowed (step format one root journal) (JournalLast root journal) s (commitSteps journal) := by
  apply allowed_of_forall
  intro a listed t
  simp only [commitSteps, stagingSteps, mem_append, mem_cons, mem_replicate, not_mem_nil,
    or_false] at listed
  rcases listed with ((rfl | rfl) | ⟨-, rfl⟩ | rfl) | rfl
  all_goals exact trivial

omit [DecidableEq format.Number] in
theorem run_stagingSteps (before : Disk) (rows : List DeletionGuard) :
    ∃ disk, run (step format one root journal) ⟨before, rows, .begun⟩ (stagingSteps journal) =
      some ⟨disk, rows, .staged⟩ := by
  have begins : run (step format one root journal) ⟨before, rows, .begun⟩
      [.makeDirectory, .writeJournal false] = some ⟨{
        files := fun p => if p = journalPath root journal.operationId then
          some (journalText format one journal) else before.files p
        operations := before.operations ++ [journal.operationId] }, rows,
          .moving journal.entries⟩ := rfl
  obtain ⟨moved, reached⟩ := run_moves journal.entries _ rows
  refine ⟨moved, ?_⟩
  rw [stagingSteps, run_append, begins, Option.bind_some, run_append, reached]
  rfl

theorem unreadable_stays (placed : Placed root journal) (before : Disk)
    (idle : before.operations = [])
    (fresh : ∀ p, operationRoot root journal.operationId <+: p → before.files p = none)
    (unreadable : readJournal format one root journal.operationId (journalText format one journal)
      = none) :
    ¬ CrashSafe format one root journal before := by
  intro crashSafe
  obtain ⟨disk, staged⟩ : ∃ disk, run (step format one root journal) ⟨before, [], .begun⟩
      (stagingSteps journal) = some ⟨disk, [], .staged⟩ := run_stagingSteps before []
  have allowed : Allowed (step format one root journal) (JournalLast root journal)
    ⟨before, [], .begun⟩ (commitSteps journal) := commitSteps_allowed _
  have midway : Midway format one root journal before.files disk :=
    run_invariant _ (fits_preserved placed fresh) ⟨before, [], .begun⟩ _ _
      (allowed_front _ _ _ _ allowed) (fits_begun before idle []) staged
  have reached : run (step format one root journal) ⟨before, [], .begun⟩ (commitSteps journal) =
      some ⟨disk, [], .committed⟩ := by
    rw [commitSteps, run_append, staged]
    rfl
  have unchanged : recover format one root [] disk = disk := by
    apply recover_unreadable [] disk journal.operationId midway.operations
    rw [midway.written, Option.bind_some, unreadable]
  have recovers := crashSafe [] _ _ allowed reached
  have cleaned := (recovers.cleans fun _ _ => not_mem_nil).1 _
    (journalPath_inside root journal.operationId)
  rw [unchanged, midway.written] at cleaned
  cases cleaned

variable (format one root)

/-- The files that staging lists, each once, in the order of the candidates. -/
def stagedFiles (candidates : List Text) : List Text :=
  (candidates.map fun candidate =>
    relativeText ((resolve root candidate).drop root.length)).eraseDups

def stagedJournal (operationId createdAt : Text) (candidates : List Text)
    (guards : List DeletionGuard) : DeletionJournal where
  operationId := operationId
  createdAt := createdAt
  guards := guards
  entries := (stagedFiles root candidates).zipIdx.map fun numbered =>
    ⟨numbered.1, quarantineRelative operationId numbered.2⟩

theorem relatives_of_accepted (candidates : List Text) (relatives : List Path)
    (accepted : candidates.mapM (fun candidate => assertUnderRoot root (resolve root candidate)) =
      .ok relatives) :
    relatives = candidates.map fun candidate => (resolve root candidate).drop root.length := by
  induction candidates generalizing relatives with
  | nil =>
    cases accepted
    rfl
  | cons candidate rest ih =>
    rw [mapM_cons] at accepted
    cases first : assertUnderRoot root (resolve root candidate) with
    | error refusal =>
      rw [first] at accepted
      cases accepted
    | ok rel =>
      cases later : rest.mapM (fun candidate => assertUnderRoot root (resolve root candidate)) with
      | error refusal =>
        rw [first, later] at accepted
        cases accepted
      | ok others =>
        rw [first, later] at accepted
        cases accepted
        obtain ⟨split, -, -⟩ := assertUnderRoot_ok root _ rel first
        rw [map_cons, split, drop_left, ← ih others later]

theorem planJournal_staged (operationId createdAt : Text) (candidates : List Text)
    (guards : List DeletionGuard) (journal : DeletionJournal)
    (planned : planJournal root operationId createdAt candidates guards = .ok journal) :
    journal = stagedJournal root operationId createdAt candidates guards := by
  unfold planJournal at planned
  split at planned
  · cases planned
  · rename_i relatives accepted
    cases planned
    rw [relatives_of_accepted root candidates relatives accepted, map_map]
    rfl

/-- The recovery reads the journal that staging wrote as it was meant. -/
def SelfReading (journal : DeletionJournal) : Prop :=
  readJournal format one root journal.operationId (journalText format one journal) =
    some ⟨journal.guards, journal.entries⟩

/-- The limits of the recovery, on what is handed to the staging. -/
structure WithinLimits (operationId createdAt : Text) (candidates : List Text)
    (guards : List DeletionGuard) : Prop where
  rows : guards.length ≤ 100000
  ids : ∀ guard ∈ guards, guard.id ≠ [] ∧ utf16Length guard.id ≤ 256
  files : (stagedFiles root candidates).length ≤ 100000
  size : utf16Length (journalText format one
    (stagedJournal root operationId createdAt candidates guards)) ≤ 1000000

omit [DecidableEq format.Number] in
theorem withinLimits_iff (operationId createdAt : Text) (candidates : List Text)
    (guards : List DeletionGuard) :
    Acceptable format one (stagedJournal root operationId createdAt candidates guards) ↔
      WithinLimits format one root operationId createdAt candidates guards := by
  have count : (stagedJournal root operationId createdAt candidates guards).entries.length =
      (stagedFiles root candidates).length := by
    rw [stagedJournal, length_map, length_zipIdx]
  constructor
  · intro acceptable
    have entries := acceptable.entries
    rw [count] at entries
    exact ⟨acceptable.guards, acceptable.ids, entries, acceptable.size⟩
  · intro within
    exact ⟨within.size, count ▸ within.files, within.rows, within.ids⟩

/-- A staged deletion is its own reader exactly when it keeps to the limits of the recovery. -/
theorem selfReading_iff (clean : Clean root) (operationId createdAt : Text)
    (valid : isOperationId operationId = true) (candidates : List Text)
    (guards : List DeletionGuard) (journal : DeletionJournal)
    (planned : planJournal root operationId createdAt candidates guards = .ok journal) :
    SelfReading format one root journal ↔
      WithinLimits format one root operationId createdAt candidates guards := by
  obtain ⟨plan, -⟩ := planJournal_planned root clean operationId createdAt
    (operationId_name operationId valid) candidates guards journal planned
  rw [← withinLimits_iff, ← planJournal_staged root operationId createdAt candidates guards journal
    planned]
  cases plan.operation
  rcases readJournal_journalText format one root _ valid journal plan with
    ⟨readable, acceptable⟩ | ⟨unreadable, refused⟩
  · exact iff_of_true readable acceptable
  · apply iff_of_false _ refused
    intro readable
    rw [SelfReading, unreadable] at readable
    cases readable

end Safety

def cameraRoot : Path := ["data".toList]

def operation : Text := "0f8fad5b-d9cb-469f-a165-70867728950e".toList

theorem operation_valid : isOperationId operation = true := by decide

def stagedAt : Text := "2026-01-05T12:00:00.000Z".toList

/-- The file of the recording with this number. -/
def archived (index : Nat) : Path := ["cam-1".toList, padStart index, "video.mp4".toList]

theorem archived_clean (index : Nat) : Clean (archived index) := by
  intro component member
  simp only [archived, mem_cons, not_mem_nil, or_false] at member
  rcases member with rfl | rfl | rfl
  · exact ⟨by decide, by decide, by decide, by decide⟩
  · exact padStart_name index
  · exact ⟨by decide, by decide, by decide, by decide⟩

theorem cameraRoot_clean : Clean cameraRoot := by
  intro component member
  rw [mem_singleton.mp member]
  exact ⟨by decide, by decide, by decide, by decide⟩

/-- An archive of this many recordings, on a disk with no deletion pending. -/
def archive (recordings : Nat) : Disk where
  files := fun p =>
    if p ∈ (List.range recordings).map fun index => cameraRoot ++ archived index then some ['v']
    else none
  operations := []

variable (recordings : Nat)

theorem archive_fresh (p : Path) (inside : operationRoot cameraRoot operation <+: p) :
    (archive recordings).files p = none := by
  apply if_neg
  intro member
  obtain ⟨index, -, rfl⟩ := mem_map.mp member
  rw [operationRoot, prefix_append_right_inj, archived, cons_prefix_cons] at inside
  exact absurd inside.1 (by decide)

theorem archived_apart {index : Nat} : (archived index).head? ≠ some journalDir := by
  show some "cam-1".toList ≠ some journalDir
  decide

def recordingGuard (index : Nat) : DeletionGuard := ⟨.recording, padStart index⟩

/-- The deletion of a whole archive, planned. -/
def planArchive (recordings : Nat) : Except StageError DeletionJournal :=
  planJournal cameraRoot operation stagedAt
    ((List.range recordings).map fun index => relativeText (archived index))
    ((List.range recordings).map recordingGuard)

theorem mapM_ok {β γ : Type} (check : β → Except StageError γ) (result : β → γ) (items : List β)
    (passes : ∀ item ∈ items, check item = .ok (result item)) :
    items.mapM check = .ok (items.map result) := by
  induction items with
  | nil => rfl
  | cons item rest ih =>
    rw [mapM_cons, passes item mem_cons_self,
      ih fun other member => passes other (mem_cons_of_mem _ member)]
    rfl

theorem planArchive_ok : ∃ journal, planArchive recordings = .ok journal := by
  have resolved : ∀ index, resolve cameraRoot (relativeText (archived index)) =
      cameraRoot ++ archived index := by
    intro index
    exact join_relativeText cameraRoot _ (cons_ne_nil _ _) (archived_clean index)
  have under : ((List.range recordings).map fun index => relativeText (archived index)).mapM
      (fun candidate => assertUnderRoot cameraRoot (resolve cameraRoot candidate)) =
      .ok (((List.range recordings).map fun index => relativeText (archived index)).map fun text =>
        (resolve cameraRoot text).drop cameraRoot.length) := by
    apply mapM_ok
    intro text member
    obtain ⟨index, -, rfl⟩ := mem_map.mp member
    rw [resolved, drop_left]
    exact assertUnderRoot_append cameraRoot _ (cons_ne_nil _ _) archived_apart
  unfold planArchive planJournal
  rw [under]
  exact ⟨_, rfl⟩

/-- The journal of two recordings. -/
def pairJournal : DeletionJournal :=
  ⟨operation, stagedAt, [recordingGuard 0, recordingGuard 1],
    [⟨relativeText (archived 0), quarantineRelative operation 0⟩,
      ⟨relativeText (archived 1), quarantineRelative operation 1⟩]⟩

theorem pairJournal_planned : planArchive 2 = .ok pairJournal := rfl

theorem pairJournal_ids : ∀ guard ∈ pairJournal.guards,
    guard.id ≠ [] ∧ utf16Length guard.id ≤ 256 := by decide

theorem two_recordings_selfReading : ∃ journal, planArchive 2 = .ok journal ∧
    journal.entries.length = 2 ∧ SelfReading digits digitOne cameraRoot journal := by
  refine ⟨pairJournal, pairJournal_planned, rfl, ?_⟩
  apply (selfReading_iff digits digitOne cameraRoot cameraRoot_clean operation stagedAt
    operation_valid _ _ _ pairJournal_planned).mpr
  exact ⟨by decide, pairJournal_ids, by decide +kernel, by decide +kernel⟩

theorem planArchive_unreadable (many : 100000 < recordings) :
    ∃ journal, planArchive recordings = .ok journal ∧ Planned operation journal ∧
      readJournal digits digitOne cameraRoot operation (journalText digits digitOne journal) =
        none := by
  obtain ⟨journal, planned⟩ := planArchive_ok recordings
  obtain ⟨plan, guards⟩ := planJournal_planned cameraRoot cameraRoot_clean operation stagedAt
    (operationId_name operation operation_valid) _ _ journal planned
  refine ⟨journal, planned, plan, ?_⟩
  rcases readJournal_journalText digits digitOne cameraRoot _ operation_valid journal plan with
    ⟨-, acceptable⟩ | ⟨unreadable, -⟩
  · have count := acceptable.guards
    rw [guards, length_map, length_range] at count
    omega
  · exact unreadable

theorem large_archive_unread : ∃ journal, planArchive 100001 = .ok journal ∧
    ¬ SelfReading digits digitOne cameraRoot journal := by
  obtain ⟨journal, planned, plan, unreadable⟩ := planArchive_unreadable 100001 (by omega)
  refine ⟨journal, planned, ?_⟩
  intro readable
  rw [SelfReading, plan.operation, unreadable] at readable
  cases readable

theorem many_guards_stay (many : 100000 < recordings) :
    ∃ journal, planArchive recordings = .ok journal ∧
      ¬ CrashSafe digits digitOne cameraRoot journal (archive recordings) := by
  obtain ⟨journal, planned, plan, unreadable⟩ := planArchive_unreadable recordings many
  have identified := plan.operation
  have valid := operation_valid
  have fresh := archive_fresh recordings
  rw [← identified] at plan unreadable valid fresh
  exact ⟨journal, planned, unreadable_stays (plan.placed valid) _ rfl fresh unreadable⟩

end DracVms.FileDeletion
