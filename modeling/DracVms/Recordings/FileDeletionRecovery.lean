import DracVms.Library.Runs
import DracVms.Recordings.FileDeletion
import DracVms.Recordings.FileDeletionFormat

namespace DracVms.FileDeletion

open List Json Runs

/-- Where the paths of a planned journal lie. -/
structure Placed (root : Path) (journal : DeletionJournal) : Prop where
  originalOutside : ∀ entry ∈ journal.entries,
    ¬ operationRoot root journal.operationId <+: entry.original root
  originalUnder : ∀ entry ∈ journal.entries, root <+: entry.original root
  quarantineInside : ∀ entry ∈ journal.entries,
    operationRoot root journal.operationId <+: entry.quarantined root
  quarantineApart : ∀ entry ∈ journal.entries,
    entry.quarantined root ≠ journalPath root journal.operationId
  originals : ∀ first ∈ journal.entries, ∀ second ∈ journal.entries,
    first.original root = second.original root → first = second
  quarantines : ∀ first ∈ journal.entries, ∀ second ∈ journal.entries,
    first.quarantined root = second.quarantined root → first = second

theorem Planned.placed {root : Path} {journal : DeletionJournal}
    (planned : Planned journal.operationId journal)
    (valid : isOperationId journal.operationId = true) : Placed root journal := by
  have name := operationId_name journal.operationId valid
  have original : ∀ entry ∈ journal.entries, ∃ rel, rel ≠ [] ∧ rel.head? ≠ some journalDir ∧
      entry.original root = root ++ rel ∧ entry.originalRelative = relativeText rel := by
    intro entry member
    obtain ⟨rel, nonempty, clean, apart, text⟩ := planned.originals entry member
    refine ⟨rel, nonempty, apart, ?_, text⟩
    rw [JournalEntry.original, text]
    exact join_relativeText root rel nonempty clean
  have quarantine : ∀ entry ∈ journal.entries, ∃ index,
      entry.quarantined root = root ++ [journalDir, journal.operationId, filesDir, padStart index] ∧
      entry.quarantineRelative = quarantineRelative journal.operationId index := by
    intro entry member
    obtain ⟨index, text⟩ := planned.quarantine entry member
    refine ⟨index, ?_, text⟩
    rw [JournalEntry.quarantined, text]
    exact join_relativeText root _ (cons_ne_nil _ _) (names_clean _ name index)
  refine ⟨?_, ?_, ?_, ?_, ?_, ?_⟩
  · intro entry member inside
    obtain ⟨rel, nonempty, apart, path, -⟩ := original entry member
    rw [path, operationRoot, prefix_append_right_inj] at inside
    obtain ⟨rest, rfl⟩ := inside
    exact apart rfl
  · intro entry member
    obtain ⟨rel, -, -, path, -⟩ := original entry member
    rw [path]
    exact prefix_append root rel
  · intro entry member
    obtain ⟨index, path, -⟩ := quarantine entry member
    rw [path, operationRoot, prefix_append_right_inj]
    exact ⟨[filesDir, padStart index], rfl⟩
  · intro entry member same
    obtain ⟨index, path, -⟩ := quarantine entry member
    rw [path, journalPath, operationRoot, append_assoc, append_right_inj] at same
    cases same
  · intro first inFirst second inSecond same
    obtain ⟨relFirst, -, -, pathFirst, textFirst⟩ := original first inFirst
    obtain ⟨relSecond, -, -, pathSecond, textSecond⟩ := original second inSecond
    rw [pathFirst, pathSecond, append_right_inj] at same
    apply inj_on_of_nodup_map planned.distinctOriginals inFirst inSecond
    rw [textFirst, textSecond, same]
  · intro first inFirst second inSecond same
    obtain ⟨indexFirst, pathFirst, textFirst⟩ := quarantine first inFirst
    obtain ⟨indexSecond, pathSecond, textSecond⟩ := quarantine second inSecond
    rw [pathFirst, pathSecond, append_right_inj] at same
    apply inj_on_of_nodup_map planned.distinctQuarantine inFirst inSecond
    rw [textFirst, textSecond, quarantineRelative, quarantineRelative, same]

section Recovery

variable (format : NumberFormat) (one : format.Number) (root : Path) (journal : DeletionJournal)
  (files : Path → Option Text)

/-- The journal is written, and each file is either in its place or in the trash. -/
structure Midway (disk : Disk) : Prop where
  operations : disk.operations = [journal.operationId]
  written : disk.files (journalPath root journal.operationId) =
    some (journalText format one journal)
  entries : ∀ entry ∈ journal.entries,
    (disk.files (entry.original root) = files (entry.original root) ∧
      disk.files (entry.quarantined root) = none) ∨
    (disk.files (entry.original root) = none ∧
      disk.files (entry.quarantined root) = files (entry.original root))
  inside : ∀ p, operationRoot root journal.operationId <+: p →
    p ≠ journalPath root journal.operationId →
    (∀ entry ∈ journal.entries, p ≠ entry.quarantined root) → disk.files p = none
  elsewhere : ∀ p, ¬ operationRoot root journal.operationId <+: p →
    (∀ entry ∈ journal.entries, p ≠ entry.original root) → disk.files p = files p

variable {format one root journal files}

theorem journalPath_inside (root : Path) (operationId : Text) :
    operationRoot root operationId <+: journalPath root operationId :=
  prefix_append _ _

/-- Swapping one file between its place and the trash leaves the rest as it is. -/
theorem Midway.swap {disk changed : Disk} (placed : Placed root journal)
    (midway : Midway format one root journal files disk) (entry : JournalEntry)
    (member : entry ∈ journal.entries) (operations : changed.operations = disk.operations)
    (others : ∀ p, p ≠ entry.original root → p ≠ entry.quarantined root → changed.files p =
      disk.files p)
    (swapped : (changed.files (entry.original root) = files (entry.original root) ∧ changed.files
      (entry.quarantined root) = none) ∨ (changed.files (entry.original root) = none ∧ changed.files
      (entry.quarantined root) = files (entry.original root))) :
    Midway format one root journal files changed := by
  have apart : ∀ p, operationRoot root journal.operationId <+: p → p ≠ entry.original root := by
    rintro p inside rfl
    exact placed.originalOutside entry member inside
  have outside : ∀ p, ¬ operationRoot root journal.operationId <+: p →
      p ≠ entry.quarantined root := by
    rintro p beyond rfl
    exact beyond (placed.quarantineInside entry member)
  refine ⟨?_, ?_, ?_, ?_, ?_⟩
  · rw [operations]
    exact midway.operations
  · rw [others _ (apart _ (journalPath_inside root _)) (placed.quarantineApart entry member).symm]
    exact midway.written
  · intro other inEntries
    by_cases same : other = entry
    · rw [same]
      exact swapped
    · have original : other.original root ≠ entry.original root := fun equal =>
        same (placed.originals other inEntries entry member equal)
      have quarantined : other.quarantined root ≠ entry.quarantined root := fun equal =>
        same (placed.quarantines other inEntries entry member equal)
      rw [others _ original (outside _ (placed.originalOutside other inEntries)),
        others _ (apart _ (placed.quarantineInside other inEntries)) quarantined]
      exact midway.entries other inEntries
  · intro p inside notJournal notTrash
    rw [others p (apart p inside) (notTrash entry member)]
    exact midway.inside p inside notJournal notTrash
  · intro p beyond notOriginal
    rw [others p (notOriginal entry member) (outside p beyond)]
    exact midway.elsewhere p beyond notOriginal

variable (disk : Disk)

theorem rename_others (source target p : Path) (notSource : p ≠ source) (notTarget : p ≠ target) :
    (disk.rename source target).files p = disk.files p := by
  show (if p = target then _ else if p = source then _ else _) = _
  rw [if_neg notTarget, if_neg notSource]

theorem rename_target (source target : Path) :
    (disk.rename source target).files target = disk.files source := by
  show (if target = target then _ else _) = _
  rw [if_pos rfl]

theorem rename_source (source target : Path) (apart : source ≠ target) :
    (disk.rename source target).files source = none := by
  show (if source = target then _ else if source = source then _ else _) = _
  rw [if_neg apart, if_pos rfl]

theorem Placed.apart (placed : Placed root journal) {entry : JournalEntry}
    (member : entry ∈ journal.entries) : entry.original root ≠ entry.quarantined root := by
  intro same
  apply placed.originalOutside entry member
  rw [same]
  exact placed.quarantineInside entry member

section

variable {disk : Disk} (placed : Placed root journal)
  (midway : Midway format one root journal files disk) (entry : JournalEntry)
  (member : entry ∈ journal.entries)

include placed midway member

theorem Midway.move : Midway format one root journal files (moveEntry root entry disk) := by
  unfold moveEntry
  split
  · rename_i present
    have apart := placed.apart member
    refine midway.swap placed entry member rfl ?_ (Or.inr ⟨rename_source disk _ _ apart, ?_⟩)
    · intro p notOriginal notTrash
      exact rename_others disk _ _ p notOriginal notTrash
    · rw [rename_target]
      rcases midway.entries entry member with inPlace | inTrash
      · exact inPlace.1
      · rw [inTrash.1] at present
        cases present
  · exact midway

theorem Midway.restore (failed : Bool) :
    Midway format one root journal files (restoreEntry root entry disk failed).1 ∧
      (restoreEntry root entry disk failed).2 = failed ∧
      (restoreEntry root entry disk failed).1.files (entry.quarantined root) = none ∧
      ∀ other ∈ journal.entries, disk.files (other.quarantined root) = none →
        (restoreEntry root entry disk failed).1.files (other.quarantined root) = none := by
  have apart := placed.apart member
  unfold restoreEntry
  split
  · rename_i absent
    exact ⟨midway, rfl, Option.isNone_iff_eq_none.mp absent, fun _ _ gone => gone⟩
  · rename_i trashed
    have inTrash : disk.files (entry.original root) = none ∧
        disk.files (entry.quarantined root) = files (entry.original root) := by
      rcases midway.entries entry member with inPlace | inTrash
      · rw [inPlace.2] at trashed
        exact absurd rfl trashed
      · exact inTrash
    have free : ¬ (disk.files (entry.original root)).isSome = true := by
      rw [inTrash.1]
      exact Bool.false_ne_true
    rw [if_neg free]
    have gone := rename_source disk (entry.quarantined root) (entry.original root) apart.symm
    refine ⟨?_, rfl, gone, ?_⟩
    · refine midway.swap placed entry member rfl ?_ (Or.inl ⟨?_, gone⟩)
      · intro p notOriginal notTrash
        exact rename_others disk _ _ p notTrash notOriginal
      · rw [rename_target]
        exact inTrash.2
    · intro other inEntries absent
      by_cases same : other.quarantined root = entry.quarantined root
      · rw [same]
        exact gone
      · have outside : other.quarantined root ≠ entry.original root := by
          intro equal
          apply placed.originalOutside entry member
          rw [← equal]
          exact placed.quarantineInside other inEntries
        rw [rename_others disk _ _ _ same outside]
        exact absent

end

theorem Midway.restoreEntries (placed : Placed root journal) (entries : List JournalEntry)
    (disk : Disk) (midway : Midway format one root journal files disk) (failed : Bool)
    (listed : ∀ entry ∈ entries, entry ∈ journal.entries) :
    Midway format one root journal files (restoreEntries root entries disk failed).1 ∧
      (FileDeletion.restoreEntries root entries disk failed).2 = failed ∧
      ∀ entry ∈ journal.entries, entry ∈ entries ∨ disk.files (entry.quarantined root) = none →
        (FileDeletion.restoreEntries root entries disk failed).1.files (entry.quarantined root) =
          none := by
  induction entries generalizing disk failed with
  | nil =>
    refine ⟨midway, rfl, ?_⟩
    rintro entry - (impossible | gone)
    · cases impossible
    · exact gone
  | cons entry rest ih =>
    obtain ⟨next, unfailed, gone, kept⟩ :=
      midway.restore placed entry (listed entry mem_cons_self) failed
    obtain ⟨after, still, all⟩ := ih _ next _
      (fun other member => listed other (mem_cons_of_mem _ member))
    refine ⟨after, still.trans unfailed, ?_⟩
    rintro other inEntries (member | absent)
    · apply all other inEntries
      rcases mem_cons.mp member with rfl | later
      · exact Or.inr gone
      · exact Or.inl later
    · exact all other inEntries (Or.inr (kept other inEntries absent))

/-- The operation's directory is gone, and so is everything below it. -/
theorem removeOperation_single {operationId : Text} (operations : disk.operations = [operationId]) :
    (disk.removeOperation root operationId).operations = [] := by
  show disk.operations.filter _ = []
  rw [operations, filter_cons_of_neg, filter_nil]
  simp

theorem removeOperation_inside (operationId : Text) (p : Path)
    (inside : operationRoot root operationId <+: p) :
    (disk.removeOperation root operationId).files p = none :=
  if_pos inside

theorem removeOperation_outside (operationId : Text) (p : Path)
    (beyond : ¬ operationRoot root operationId <+: p) :
    (disk.removeOperation root operationId).files p = disk.files p :=
  if_neg beyond

theorem Midway.files_eq {disk : Disk}
    (fresh : ∀ p, operationRoot root journal.operationId <+: p → files p = none)
    (midway : Midway format one root journal files disk)
    (back : ∀ entry ∈ journal.entries, disk.files (entry.quarantined root) = none) :
    (disk.removeOperation root journal.operationId).files = files := by
  funext p
  by_cases inside : operationRoot root journal.operationId <+: p
  · rw [removeOperation_inside disk _ p inside, fresh p inside]
  · rw [removeOperation_outside disk _ p inside]
    by_cases original : ∃ entry ∈ journal.entries, p = entry.original root
    · obtain ⟨entry, member, rfl⟩ := original
      rcases midway.entries entry member with inPlace | inTrash
      · exact inPlace.1
      · rw [inTrash.1, ← inTrash.2]
        exact (back entry member).symm
    · apply midway.elsewhere p inside
      intro entry member same
      exact original ⟨entry, member, same⟩

theorem Midway.outside {disk : Disk} (placed : Placed root journal)
    (midway : Midway format one root journal files disk) (p : Path) (beyond : ¬ root <+: p) :
    disk.files p = files p := by
  apply midway.elsewhere p
  · intro inside
    exact beyond ((prefix_append root _).trans inside)
  · rintro entry member rfl
    exact beyond (placed.originalUnder entry member)

end Recovery

section Crash

variable (format : NumberFormat) (one : format.Number) (root : Path) (journal : DeletionJournal)
  (files : Path → Option Text)

/-- A deletion that went through, whose trash is on its way out: the journal is there until all of
it is gone. -/
structure Swept (disk : Disk) : Prop where
  operations : disk.operations = [journal.operationId]
  written : disk.files (journalPath root journal.operationId) =
      some (journalText format one journal) ∨
    ∀ p, operationRoot root journal.operationId <+: p → disk.files p = none
  inside : ∀ p, operationRoot root journal.operationId <+: p →
    p ≠ journalPath root journal.operationId →
    (∀ entry ∈ journal.entries, p ≠ entry.quarantined root) → disk.files p = none
  outside : ∀ p, ¬ root <+: p → disk.files p = files p

/-- What a crash can leave behind. -/
inductive Left (disk : Disk) (rows : List DeletionGuard) : Prop where
  | untouched (operations : disk.operations = [] ∨ disk.operations = [journal.operationId])
      (same : disk.files = files)
  | midway (midway : Midway format one root journal files disk)
  | swept (deleted : ∀ row ∈ journal.guards, row ∉ rows)
      (swept : Swept format one root journal files disk)
  | cleaned (deleted : ∀ row ∈ journal.guards, row ∉ rows) (operations : disk.operations = [])
      (inside : ∀ p, operationRoot root journal.operationId <+: p → disk.files p = none)
      (outside : ∀ p, ¬ root <+: p → disk.files p = files p)

/-- What each phase knows about the disk and the rows. -/
def Fits (s : State) : Prop :=
  match s.phase with
  | .begun => s.disk.operations = [] ∧ s.disk.files = files
  | .directory => s.disk.operations = [journal.operationId] ∧ s.disk.files = files
  | .moving rest =>
    Midway format one root journal files s.disk ∧ ∀ entry ∈ rest, entry ∈ journal.entries
  | .staged => Midway format one root journal files s.disk
  | .committed =>
    Swept format one root journal files s.disk ∧ ∀ row ∈ journal.guards, row ∉ s.rows
  | .restoring rest failed =>
    Midway format one root journal files s.disk ∧ (∀ entry ∈ rest, entry ∈ journal.entries) ∧
      (failed = false → ∀ entry ∈ journal.entries,
        entry ∈ rest ∨ s.disk.files (entry.quarantined root) = none)
  | .restored =>
    (Midway format one root journal files s.disk ∧
      ∀ entry ∈ journal.entries, s.disk.files (entry.quarantined root) = none) ∨
    s.disk.operations = [journal.operationId] ∧ s.disk.files = files
  | .over => Left format one root journal files s.disk s.rows

variable {format one root journal files}

theorem Fits.left {s : State} (fits : Fits format one root journal files s) :
    Left format one root journal files s.disk s.rows := by
  unfold Fits at fits
  cases phase : s.phase with
  | begun =>
    rw [phase] at fits
    exact .untouched (Or.inl fits.1) fits.2
  | directory =>
    rw [phase] at fits
    exact .untouched (Or.inr fits.1) fits.2
  | moving rest =>
    rw [phase] at fits
    exact .midway fits.1
  | staged =>
    rw [phase] at fits
    exact .midway fits
  | committed =>
    rw [phase] at fits
    exact .swept fits.2 fits.1
  | restoring rest failed =>
    rw [phase] at fits
    exact .midway fits.1
  | restored =>
    rw [phase] at fits
    rcases fits with ⟨midway, -⟩ | ⟨operations, same⟩
    · exact .midway midway
    · exact .untouched (Or.inr operations) same
  | «over» =>
    rw [phase] at fits
    exact fits

theorem Fits.mono {s : State} (fits : Fits format one root journal files s)
    (rows : List DeletionGuard) (fewer : ∀ row ∈ rows, row ∈ s.rows) :
    Fits format one root journal files { s with rows := rows } := by
  unfold Fits at fits ⊢
  cases phase : s.phase with
  | committed =>
    simp only [phase] at fits ⊢
    exact ⟨fits.1, fun row member kept => fits.2 row member (fewer row kept)⟩
  | «over» =>
    simp only [phase] at fits ⊢
    cases fits with
    | untouched operations same => exact .untouched operations same
    | midway midway => exact .midway midway
    | swept deleted swept =>
      exact .swept (fun row member kept => deleted row member (fewer row kept)) swept
    | cleaned deleted operations inside outside =>
      exact .cleaned (fun row member kept => deleted row member (fewer row kept)) operations
        inside outside
  | begun | directory | moving rest | staged | restoring rest failed | restored =>
    simp only [phase] at fits ⊢
    exact fits

theorem midway_written (placed : Placed root journal) (disk : Disk)
    (fresh : ∀ p, operationRoot root journal.operationId <+: p → files p = none)
    (operations : disk.operations = [journal.operationId]) (same : disk.files = files) :
    Midway format one root journal files
      (disk.write (journalPath root journal.operationId) (journalText format one journal)) := by
  have others : ∀ p, p ≠ journalPath root journal.operationId →
      (disk.write (journalPath root journal.operationId) (journalText format one journal)).files p =
        files p := by
    intro p apart
    rw [← same]
    exact if_neg apart
  refine ⟨operations, if_pos rfl, ?_, ?_, ?_⟩
  · intro entry member
    left
    refine ⟨others _ ?_, ?_⟩
    · intro journalled
      apply placed.originalOutside entry member
      rw [journalled]
      exact journalPath_inside root _
    · rw [others _ (placed.quarantineApart entry member)]
      exact fresh _ (placed.quarantineInside entry member)
  · intro p inside apart _
    rw [others p apart]
    exact fresh p inside
  · intro p beyond _
    apply others p
    rintro rfl
    exact beyond (journalPath_inside root _)

theorem unlink_other {disk : Disk} {path p : Path} (other : p ≠ path) :
    (disk.unlink path).files p = disk.files p :=
  if_neg other

theorem unlink_none {disk : Disk} {path : Path} (nothing : disk.files path = none) :
    (disk.unlink path).files = disk.files := by
  funext p
  by_cases same : p = path
  · rw [same, nothing]
    exact if_pos rfl
  · exact unlink_other same

theorem Midway.swept {disk : Disk} (placed : Placed root journal)
    (midway : Midway format one root journal files disk) :
    Swept format one root journal files disk :=
  ⟨midway.operations, Or.inl midway.written, midway.inside, midway.outside placed⟩

/-- One file of the trash less, or the journal when no other is left. -/
theorem Swept.unlink {disk : Disk} {path : Path} (swept : Swept format one root journal files disk)
    (inside : operationRoot root journal.operationId <+: path)
    (last : path = journalPath root journal.operationId →
      ∀ entry ∈ journal.entries, disk.files (entry.quarantined root) = none) :
    Swept format one root journal files (disk.unlink path) where
  operations := swept.operations
  written := by
    have stays : ∀ p, disk.files p = none → (disk.unlink path).files p = none := by
      intro p nothing
      show (if p = path then none else disk.files p) = none
      split
      · rfl
      · exact nothing
    rcases swept.written with written | empty
    · by_cases journalled : path = journalPath root journal.operationId
      · right
        intro p within
        by_cases same : p = path
        · exact if_pos same
        · rw [unlink_other same]
          by_cases trash : ∃ entry ∈ journal.entries, p = entry.quarantined root
          · obtain ⟨entry, member, rfl⟩ := trash
            exact last journalled entry member
          · apply swept.inside p within
            · rw [← journalled]
              exact same
            · exact fun entry member equal => trash ⟨entry, member, equal⟩
      · left
        rw [unlink_other fun same => journalled same.symm]
        exact written
    · exact Or.inr fun p within => stays p (empty p within)
  inside := by
    intro p within notJournal notTrash
    by_cases same : p = path
    · exact if_pos same
    · rw [unlink_other same]
      exact swept.inside p within notJournal notTrash
  outside := by
    intro p beyond
    have other : p ≠ path := by
      rintro rfl
      exact beyond ((prefix_append root _).trans inside)
    rw [unlink_other other]
    exact swept.outside p beyond

/-- With the files back in their places there is the journal to take, and nothing else. -/
theorem restored_unlink {disk : Disk} {path : Path}
    (fresh : ∀ p, operationRoot root journal.operationId <+: p → files p = none)
    (midway : Midway format one root journal files disk)
    (back : ∀ entry ∈ journal.entries, disk.files (entry.quarantined root) = none)
    (inside : operationRoot root journal.operationId <+: path) :
    (disk.unlink path).files = disk.files ∨ (disk.unlink path).files = files := by
  by_cases journalled : path = journalPath root journal.operationId
  · right
    rw [← midway.files_eq fresh back]
    funext p
    by_cases within : operationRoot root journal.operationId <+: p
    · rw [removeOperation_inside disk _ p within]
      by_cases same : p = path
      · exact if_pos same
      · rw [unlink_other same]
        by_cases trash : ∃ entry ∈ journal.entries, p = entry.quarantined root
        · obtain ⟨entry, member, rfl⟩ := trash
          exact back entry member
        · apply midway.inside p within
          · rw [← journalled]
            exact same
          · exact fun entry member equal => trash ⟨entry, member, equal⟩
    · rw [removeOperation_outside disk _ p within, unlink_other]
      rintro rfl
      exact within inside
  · left
    apply unlink_none
    by_cases trash : ∃ entry ∈ journal.entries, path = entry.quarantined root
    · obtain ⟨entry, member, rfl⟩ := trash
      exact back entry member
    · exact midway.inside path inside journalled fun entry member equal =>
        trash ⟨entry, member, equal⟩

/-- Cleaning up after everything went back is as if nothing had happened. -/
theorem left_restored {disk : Disk} (rows : List DeletionGuard)
    (fresh : ∀ p, operationRoot root journal.operationId <+: p → files p = none)
    (fits : Fits format one root journal files ⟨disk, rows, .restored⟩) :
    Left format one root journal files (disk.removeOperation root journal.operationId) rows := by
  rcases fits with ⟨midway, back⟩ | ⟨operations, same⟩
  · exact .untouched (Or.inl (removeOperation_single disk midway.operations))
      (midway.files_eq fresh back)
  · refine .untouched (Or.inl (removeOperation_single disk operations)) ?_
    funext p
    by_cases inside : operationRoot root journal.operationId <+: p
    · rw [removeOperation_inside disk _ p inside, fresh p inside]
    · rw [removeOperation_outside disk _ p inside, show disk.files = files from same]

theorem left_committed {disk : Disk} (rows : List DeletionGuard)
    (swept : Swept format one root journal files disk)
    (deleted : ∀ row ∈ journal.guards, row ∉ rows) :
    Left format one root journal files (disk.removeOperation root journal.operationId) rows := by
  refine .cleaned deleted (removeOperation_single disk swept.operations) ?_ ?_
  · intro p inside
    exact removeOperation_inside disk _ p inside
  · intro p beyond
    rw [removeOperation_outside disk _ p (fun inside =>
      beyond ((prefix_append root _).trans inside))]
    exact swept.outside p beyond

variable (root journal) in
/-- The clean-up takes the journal when no other file of the trash is left. -/
def JournalLast (s : State) : Step → Prop
  | .unlink path => path = journalPath root journal.operationId →
      ∀ entry ∈ journal.entries, s.disk.files (entry.quarantined root) = none
  | _ => True

/-- Every step of a deletion, failing or not, keeps what the phases know. -/
theorem fits_preserved (placed : Placed root journal)
    (fresh : ∀ p, operationRoot root journal.operationId <+: p → files p = none) :
    Preserves (step format one root journal) (JournalLast root journal)
      (Fits format one root journal files) := by
  intro s a t last fits taken
  obtain ⟨disk, rows, phase⟩ := s
  have reversed : ∀ entry ∈ journal.entries.reverse, entry ∈ journal.entries := fun entry member =>
    mem_reverse.mp member
  -- every way into the restoring of all the entries
  have rollback : ∀ kept, Midway format one root journal files disk →
      Fits format one root journal files ⟨disk, kept, .restoring journal.entries.reverse false⟩ :=
    fun kept midway => ⟨midway, reversed, fun _ entry member =>
      Or.inl (mem_reverse.mpr member)⟩
  cases a with
  | makeDirectory =>
    cases phase <;> cases taken
    obtain ⟨operations, same⟩ := fits
    refine ⟨?_, same⟩
    rw [operations]
    rfl
  | writeJournal fails =>
    cases phase <;> try cases taken
    obtain ⟨operations, same⟩ := fits
    cases fails <;> cases taken
    · exact ⟨midway_written placed disk fresh operations same, fun _ member => member⟩
    · exact .untouched (Or.inr operations) same
  | move fails =>
    cases phase <;> try cases taken
    rename_i rest
    cases rest with
    | nil => cases taken
    | cons entry rest =>
      obtain ⟨midway, listed⟩ := fits
      cases fails <;> cases taken
      · exact ⟨midway.move placed entry (listed entry mem_cons_self),
          fun other member => listed other (mem_cons_of_mem _ member)⟩
      · exact rollback rows midway
  | finishStaging fails =>
    cases phase <;> try cases taken
    rename_i rest
    cases rest with
    | cons entry rest => cases taken
    | nil =>
      obtain ⟨midway, -⟩ := fits
      cases fails <;> cases taken
      · exact midway
      · exact rollback rows midway
  | deleteRows applied reported =>
    cases phase <;> cases taken
    cases applied <;> cases reported
    · exact rollback _ fits
    · exact rollback _ fits
    · exact rollback _ fits
    · refine ⟨Midway.swept placed fits, ?_⟩
      intro row member kept
      exact of_decide_eq_true (mem_filter.mp kept).2 member
  | restore fails =>
    cases phase <;> try cases taken
    rename_i rest failed
    cases rest with
    | nil => cases taken
    | cons entry rest =>
      obtain ⟨midway, listed, back⟩ := fits
      have later : ∀ other ∈ rest, other ∈ journal.entries := fun other member =>
        listed other (mem_cons_of_mem _ member)
      cases fails <;> cases taken
      · obtain ⟨next, unfailed, gone, kept⟩ :=
          midway.restore placed entry (listed entry mem_cons_self) failed
        refine ⟨next, later, ?_⟩
        intro complete other member
        rcases back (unfailed.symm.trans complete) other member with remaining | absent
        · rcases mem_cons.mp remaining with rfl | more
          · exact Or.inr gone
          · exact Or.inl more
        · exact Or.inr (kept other member absent)
      · exact ⟨midway, later, nofun⟩
  | finishRestore =>
    cases phase <;> try cases taken
    rename_i rest failed
    cases rest with
    | cons entry rest => cases taken
    | nil =>
      obtain ⟨midway, -, back⟩ := fits
      cases failed <;> cases taken
      · refine Or.inl ⟨midway, ?_⟩
        intro entry member
        rcases back rfl entry member with impossible | gone
        · cases impossible
        · exact gone
      · exact .midway midway
  | unlink path =>
    have within : operationRoot root journal.operationId <+: path := by
      by_contra outside
      simp only [step, if_neg outside] at taken
      cases phase <;> cases taken
    simp only [step, if_pos within] at taken
    cases phase <;> cases taken
    · obtain ⟨swept, deleted⟩ := fits
      exact ⟨swept.unlink within last, deleted⟩
    · rcases fits with ⟨midway, back⟩ | ⟨operations, same⟩
      · rcases restored_unlink fresh midway back within with stays | gone
        · have unchanged : disk.unlink path = disk := by
            cases disk
            exact congrArg₂ Disk.mk stays rfl
          rw [unchanged]
          exact Or.inl ⟨midway, back⟩
        · exact Or.inr ⟨midway.operations, gone⟩
      · refine Or.inr ⟨operations, ?_⟩
        rw [unlink_none]
        · exact same
        · rw [show disk.files = files from same]
          exact fresh path within
  | cleanUp fails =>
    cases phase <;> try cases taken
    · obtain ⟨swept, deleted⟩ := fits
      cases fails <;> cases taken
      · exact left_committed rows swept deleted
      · exact .swept deleted swept
    · cases fails <;> cases taken
      · exact left_restored rows fresh fits
      · exact fits.left
  | dropRow row =>
    cases taken
    exact fits.mono _ (fun other kept => (mem_filter.mp kept).1)

end Crash

end DracVms.FileDeletion
