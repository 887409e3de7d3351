import DracVms.Recordings.FileDeletionJournal

namespace DracVms.FileDeletion

open Json

/-- The files of the machine, and the directories under the root's `.drac-file-deletions`. -/
structure Disk where
  files : Path → Option Text
  operations : List Text

def operationRoot (root : Path) (operationId : Text) : Path := root ++ [journalDir, operationId]

def journalPath (root : Path) (operationId : Text) : Path :=
  operationRoot root operationId ++ [journalFile]

def JournalEntry.original (root : Path) (entry : JournalEntry) : Path :=
  join root entry.originalRelative

def JournalEntry.quarantined (root : Path) (entry : JournalEntry) : Path :=
  join root entry.quarantineRelative

def Disk.write (disk : Disk) (path : Path) (content : Text) : Disk :=
  { disk with files := fun p => if p = path then some content else disk.files p }

def Disk.rename (disk : Disk) (source target : Path) : Disk :=
  { disk with files := fun p =>
      if p = target then disk.files source else if p = source then none else disk.files p }

def Disk.unlink (disk : Disk) (path : Path) : Disk :=
  { disk with files := fun p => if p = path then none else disk.files p }

/-- What `rm(operationRoot, { recursive: true, force: true })` comes to when it ends. -/
def Disk.removeOperation (disk : Disk) (root : Path) (operationId : Text) : Disk where
  files := fun p => if operationRoot root operationId <+: p then none else disk.files p
  operations := disk.operations.filter (· ≠ operationId)

/-- One entry of `restoreJournal`: the disk, and whether an error was recorded. -/
def restoreEntry (root : Path) (entry : JournalEntry) (disk : Disk) (failed : Bool) : Disk × Bool :=
  if (disk.files (entry.quarantined root)).isNone then (disk, failed)
  else if (disk.files (entry.original root)).isSome then (disk, true)
  else (disk.rename (entry.quarantined root) (entry.original root), failed)

def restoreEntries (root : Path) : List JournalEntry → Disk → Bool → Disk × Bool
  | [], disk, failed => (disk, failed)
  | entry :: rest, disk, failed =>
    restoreEntries root rest (restoreEntry root entry disk failed).1
      (restoreEntry root entry disk failed).2

/-- The disk, and whether every file went back. -/
def restoreJournal (root : Path) (operationId : Text) (entries : List JournalEntry) (disk : Disk) :
    Disk × Bool :=
  let (restored, failed) := restoreEntries root entries.reverse disk false
  if failed then (restored, false) else (restored.removeOperation root operationId, true)

structure Recovery where
  disk : Disk
  scanned : Nat
  restored : Nat
  cleaned : Nat
  failed : Nat

section Recover

variable (format : NumberFormat) (one : format.Number) [DecidableEq format.Number]

/-- One directory of `recoverPendingFileDeletions`. -/
def recoverOperation (root : Path) (guardExists : DeletionGuard → Bool) (so : Recovery)
    (operationId : Text) : Recovery :=
  let so := { so with scanned := so.scanned + 1 }
  match (so.disk.files (journalPath root operationId)).bind
      (readJournal format one root operationId) with
  | none => { so with failed := so.failed + 1 }
  | some journal =>
    if journal.guards.any guardExists then
      let (disk, complete) := restoreJournal root operationId journal.entries so.disk
      if complete then { so with disk := disk, restored := so.restored + 1 }
      else { so with disk := disk, failed := so.failed + 1 }
    else
      { so with
        disk := so.disk.removeOperation root operationId
        cleaned := so.cleaned + 1 }

def recoverPendingFileDeletions (root : Path) (guardExists : DeletionGuard → Bool) (disk : Disk) :
    Recovery :=
  disk.operations.foldl (recoverOperation format one root guardExists) ⟨disk, 0, 0, 0, 0⟩

/-- How far one deletion has come when the process dies. -/
inductive Phase where
  | begun
  | directory
  | moving (rest : List JournalEntry)
  | staged
  | committed
  | restoring (rest : List JournalEntry) (failed : Bool)
  | restored
  | over

structure State where
  disk : Disk
  rows : List DeletionGuard
  phase : Phase

/-- `unlink` is one file that the recursive `rm` of the clean-up takes, in an order of its own, and
`dropRow` is any other deletion of a guard row. -/
inductive Step where
  | makeDirectory
  | writeJournal (fails : Bool)
  | move (fails : Bool)
  | finishStaging (fails : Bool)
  | deleteRows (applied reported : Bool)
  | restore (fails : Bool)
  | finishRestore
  | unlink (path : Path)
  | cleanUp (fails : Bool)
  | dropRow (guard : DeletionGuard)

variable (root : Path) (journal : DeletionJournal)

def moveEntry (entry : JournalEntry) (disk : Disk) : Disk :=
  if (disk.files (entry.original root)).isSome then
    disk.rename (entry.original root) (entry.quarantined root)
  else disk

/-- `deleteRowsWithFiles`, from the staging in its transaction to `commit` or `rollback`. -/
def step (s : State) : Step → Option State
  | .makeDirectory =>
    match s.phase with
    | .begun => some { s with
        disk := { s.disk with operations := s.disk.operations ++ [journal.operationId] }
        phase := .directory }
    | _ => none
  | .writeJournal fails =>
    match s.phase with
    | .directory =>
      if fails then some { s with phase := .over }
      else some { s with
        disk := s.disk.write (journalPath root journal.operationId) (journalText format one journal)
        phase := .moving journal.entries }
    | _ => none
  | .move fails =>
    match s.phase with
    | .moving (entry :: rest) =>
      if fails then some { s with phase := .restoring journal.entries.reverse false }
      else some { s with disk := moveEntry root entry s.disk, phase := .moving rest }
    | _ => none
  | .finishStaging fails =>
    match s.phase with
    | .moving [] =>
      if fails then some { s with phase := .restoring journal.entries.reverse false }
      else some { s with phase := .staged }
    | _ => none
  | .deleteRows applied reported =>
    match s.phase with
    | .staged => some { s with
        rows := if applied then s.rows.filter (· ∉ journal.guards) else s.rows
        phase :=
          if applied && reported then .committed
          else .restoring journal.entries.reverse false }
    | _ => none
  | .restore fails =>
    match s.phase with
    | .restoring (entry :: rest) failed =>
      if fails then some { s with phase := .restoring rest true }
      else some { s with
        disk := (restoreEntry root entry s.disk failed).1
        phase := .restoring rest (restoreEntry root entry s.disk failed).2 }
    | _ => none
  | .finishRestore =>
    match s.phase with
    | .restoring [] failed => some { s with phase := if failed then .over else .restored }
    | _ => none
  | .unlink path =>
    match s.phase with
    | .restored | .committed =>
      if operationRoot root journal.operationId <+: path then
        some { s with disk := s.disk.unlink path }
      else none
    | _ => none
  | .cleanUp fails =>
    match s.phase with
    | .restored | .committed =>
      if fails then some { s with phase := .over }
      else some { s with
        disk := s.disk.removeOperation root journal.operationId
        phase := .over }
    | _ => none
  | .dropRow guard => some { s with rows := s.rows.filter (· ≠ guard) }

end Recover

end DracVms.FileDeletion
