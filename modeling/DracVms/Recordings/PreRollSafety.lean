import DracVms.Recordings.PreRoll
import DracVms.Library.Runs

namespace DracVms.PreRoll

open List

open Json (Text)
open KeyedList

/-- From when on a segment counts, until the recorder is confirmed. -/
def Phase.since (preEventMs : Nat) (now : Int) : Phase → Option Int
  | .idle => some (now - preEventMs)
  | .triggered triggeredAtMs => some (triggeredAtMs - preEventMs)
  | .promoting triggeredAtMs _ => some (triggeredAtMs - preEventMs)
  | .starting triggeredAtMs => some (triggeredAtMs - preEventMs)
  | _ => none

/-- What the second promotion has still to move. -/
def Phase.left : Phase → List Text
  | .catchingUp _ _ queue => queue
  | _ => []

def Phase.ended : Phase → Bool
  | .stopping _ _ => true
  | .wiping _ _ _ => true
  | .recording _ _ => true
  | _ => false

/-- A segment that counts must not be lost, as far as can be told: no trigger so far is too late for
it, or the recording that started must have it. -/
def counts (preEventMs : Nat) (s : Camera) (file : RingFile) : Prop :=
  match s.phase.since preEventMs s.now with
  | some bound => bound ≤ file.mtimeMs
  | none => file ∈ s.due

/-- A segment of the ring that counts and is not in the archive. -/
def promised (preEventMs : Nat) (s : Camera) (file : RingFile) : Prop :=
  match s.phase.since preEventMs s.now with
  | some bound => bound ≤ file.mtimeMs
  | none => file ∈ s.due ∧ file.name ∈ s.phase.left

instance (preEventMs : Nat) (s : Camera) (file : RingFile) :
    Decidable (promised preEventMs s file) :=
  match since : s.phase.since preEventMs s.now with
  | some bound => decidable_of_iff (bound ≤ file.mtimeMs) (by rw [promised, since])
  | none => decidable_of_iff (file ∈ s.due ∧ file.name ∈ s.phase.left) (by rw [promised, since])

def InArchive (archive : List Archived) (file : RingFile) : Prop :=
  ∃ entry ∈ archive, entry.name = destName file.mtimeMs ∧ entry.segment = some file

/-- When the ring is wiped, each segment that counts is in the archive under a name of its own. -/
structure Kept (s : Camera) : Prop where
  archived : s.phase.ended = true → ∀ file ∈ s.due, InArchive s.archive file
  distinct : (s.archive.map Archived.name).Nodup

section Claim

variable (preEventMs : Nat)

/-- The steps that lose no segment that counts. -/
structure Regular (s : Camera) (a : Event) : Prop where
  pruned : a = .prune → s.buffering = true → ∀ file ∈ s.ring, file.closed = true →
    promised preEventMs s file → s.now - file.mtimeMs ≤ preEventMs + 6000
  reopened : ∀ name, a = .openFile name → ∀ file ∈ (closeFile s).ring, file.closed = true →
    promised preEventMs s file → file.name ≠ name
  overwritten : ∀ name, a = .record name → ∀ entry ∈ s.archive, entry.name = name →
    entry.files = .ts → ∀ file, entry.segment = some file → ¬counts preEventMs s file
  first : ∀ moves remuxes triggeredAtMs name rest, a = .promote moves remuxes →
    s.phase = .promoting triggeredAtMs (name :: rest) → ∀ file ∈ s.ring, file.name = name →
    file.closed = true → promised preEventMs s file → moves = true → ∀ entry ∈ s.archive,
    entry.name = destName file.mtimeMs → entry.files ≠ .mp4
  second : ∀ moves remuxes triggeredAtMs confirmedMs name rest, a = .promote moves remuxes →
    s.phase = .catchingUp triggeredAtMs confirmedMs (name :: rest) → ∀ file ∈ s.ring,
    file.name = name → file.closed = true → promised preEventMs s file →
    moves = true ∧ ∀ entry ∈ s.archive, entry.name ≠ destName file.mtimeMs
  reached : a = .started → ∀ file ∈ s.ring, file.closed = true → promised preEventMs s file →
    s.buffering = true ∧ s.now - preEventMs ≤ file.mtimeMs ∧ file.mtimeMs ≤ s.now + 2000 ∧
      ∃ later ∈ s.ring, file.name < later.name

/-- What a ring starts with: an archive and a ring with distinct names, and no trigger. -/
structure WellFormed (s : Camera) : Prop where
  ring : (s.ring.map RingFile.name).Nodup
  archive : (s.archive.map Archived.name).Nodup
  writing : ∀ file ∈ s.ring, s.writing = some file.name → file.closed = false
  idle : s.phase = .idle
  segments : s.segments = s.ring.filter RingFile.closed
  due : s.due = []

/-- Every segment that counts is still in the ring, or in the archive. -/
def Covered (s : Camera) : Prop :=
  match s.phase.since preEventMs s.now with
  | some bound => ∀ file ∈ s.segments, bound ≤ file.mtimeMs →
      file ∈ s.ring ∨ InArchive s.archive file
  | none => ∀ file ∈ s.due, InArchive s.archive file ∨ file ∈ s.ring ∧ file.name ∈ s.phase.left

structure Inv (s : Camera) : Prop where
  ring : (s.ring.map RingFile.name).Nodup
  archive : (s.archive.map Archived.name).Nodup
  writing : ∀ file ∈ s.ring, s.writing = some file.name → file.closed = false
  segments : ∀ file ∈ s.segments, file.closed = true
  due : ∀ file ∈ s.due, file.closed = true
  clock : ∀ bound, s.phase.since preEventMs s.now = some bound → bound + preEventMs ≤ s.now
  covered : Covered preEventMs s

end Claim

section Frame

variable {preEventMs : Nat} {s t : Camera}

theorem since_later (now later : Int) (passed : now ≤ later) (phase : Phase) (bound : Int)
    (since : phase.since preEventMs later = some bound) :
    ∃ before, phase.since preEventMs now = some before ∧ before ≤ bound ∧
      (bound = before ∨ bound = later - preEventMs) := by
  cases phase with
  | idle =>
    cases since
    exact ⟨now - preEventMs, rfl, by omega, Or.inr rfl⟩
  | triggered triggeredAtMs | promoting triggeredAtMs queue | starting triggeredAtMs =>
    exact ⟨bound, since, le_refl _, Or.inl rfl⟩
  | catchingUp triggeredAtMs confirmedMs queue | stopping triggeredAtMs confirmedMs
  | wiping triggeredAtMs confirmedMs queue | recording triggeredAtMs confirmedMs => cases since

theorem since_none (now later : Int) (phase : Phase)
    (past : phase.since preEventMs later = none) : phase.since preEventMs now = none := by
  cases phase with
  | idle | triggered triggeredAtMs | promoting triggeredAtMs queue | starting triggeredAtMs =>
    cases past
  | catchingUp triggeredAtMs confirmedMs queue | stopping triggeredAtMs confirmedMs
  | wiping triggeredAtMs confirmedMs queue | recording triggeredAtMs confirmedMs => rfl

/-- A step beside the trigger, which takes nothing from the ring that counts. -/
structure Beside (preEventMs : Nat) (s t : Camera) : Prop where
  phase : t.phase = s.phase
  due : t.due = s.due
  passed : s.now ≤ t.now
  segments : ∀ file ∈ t.segments, promised preEventMs s file → file ∈ s.segments ∨ file ∈ t.ring
  ring : ∀ file ∈ s.ring, file.closed = true → promised preEventMs s file → file ∈ t.ring
  archive : ∀ file, counts preEventMs s file → InArchive s.archive file → InArchive t.archive file

theorem covered_beside (inv : Inv preEventMs s) (beside : Beside preEventMs s t) :
    Covered preEventMs t := by
  have covered := inv.covered
  unfold Covered at covered ⊢
  rw [beside.phase]
  cases later : s.phase.since preEventMs t.now with
  | some bound =>
    obtain ⟨before, now, below, -⟩ := since_later s.now t.now beside.passed s.phase bound later
    rw [now] at covered
    intro file member within
    have counted : before ≤ file.mtimeMs := by omega
    have kept : promised preEventMs s file := by
      rw [promised, now]
      exact counted
    rcases beside.segments file member kept with old | new
    · rcases covered file old counted with inRing | archived
      · exact Or.inl (beside.ring file inRing (inv.segments file old) kept)
      · refine Or.inr (beside.archive file ?_ archived)
        rw [counts, now]
        exact counted
    · exact Or.inl new
  | none =>
    have now := since_none s.now t.now s.phase later
    rw [now] at covered
    intro file member
    rw [beside.due] at member
    rcases covered file member with archived | ⟨inRing, left⟩
    · refine Or.inl (beside.archive file ?_ archived)
      rw [counts, now]
      exact member
    · refine Or.inr ⟨beside.ring file inRing (inv.due file member) ?_, left⟩
      rw [promised, now]
      exact ⟨member, left⟩

theorem clock_beside (inv : Inv preEventMs s) (beside : Beside preEventMs s t) (bound : Int)
    (since : t.phase.since preEventMs t.now = some bound) : bound + preEventMs ≤ t.now := by
  have passed := beside.passed
  rw [beside.phase] at since
  obtain ⟨before, now, -, same | shifted⟩ :=
    since_later s.now t.now beside.passed s.phase bound since
  · have clock := inv.clock before now
    omega
  · omega

theorem inv_beside (inv : Inv preEventMs s) (beside : Beside preEventMs s t)
    (ring : (t.ring.map RingFile.name).Nodup) (archive : (t.archive.map Archived.name).Nodup)
    (writing : ∀ file ∈ t.ring, t.writing = some file.name → file.closed = false)
    (segments : ∀ file ∈ t.segments, file.closed = true) : Inv preEventMs t where
  ring := ring
  archive := archive
  writing := writing
  segments := segments
  due := by
    rw [beside.due]
    exact inv.due
  clock := clock_beside inv beside
  covered := covered_beside inv beside

theorem ring_updateAt (s : Camera) (name : Text) (change : RingFile → RingFile) (file : RingFile)
    (member : file ∈ s.ring) (other : file.name ≠ name) :
    file ∈ updateAt RingFile.name s.ring name change := by
  have mapped := mem_map_of_mem
    (f := fun file => if file.name = name then change file else file) member
  rwa [if_neg other] at mapped

theorem not_writing (inv : Inv preEventMs s) {name : Text} (writing : s.writing = some name)
    {file : RingFile} (member : file ∈ s.ring) (closed : file.closed = true) :
    file.name ≠ name := by
  rintro rfl
  have opened := inv.writing file member writing
  rw [closed] at opened
  cases opened

theorem closeFile_ring (inv : Inv preEventMs s) (file : RingFile) (member : file ∈ s.ring)
    (closed : file.closed = true) : file ∈ (closeFile s).ring := by
  unfold closeFile
  cases writing : s.writing with
  | none => exact member
  | some name =>
    exact ring_updateAt s name _ file member (not_writing inv writing member closed)

theorem closeFile_names : (closeFile s).ring.map RingFile.name = s.ring.map RingFile.name := by
  unfold closeFile
  cases s.writing with
  | none => rfl
  | some name => exact map_updateAt _ _ _ _ _ fun _ => rfl

theorem closeFile_segments (file : RingFile) (member : file ∈ (closeFile s).segments) :
    file ∈ s.segments ∨ file ∈ (closeFile s).ring ∧ file.closed = true := by
  unfold closeFile at member ⊢
  cases writing : s.writing with
  | none =>
    rw [writing] at member
    exact Or.inl member
  | some name =>
    rw [writing] at member
    rcases mem_append.mp member with new | old
    · obtain ⟨before, inRing, rfl⟩ := mem_map.mp new
      obtain ⟨there, named⟩ := mem_filter.mp inRing
      have mapped := mem_map_of_mem (f := fun file : RingFile =>
        if file.name = name then file.finished s.now else file) there
      rw [if_pos (of_decide_eq_true named)] at mapped
      exact Or.inr ⟨mapped, rfl⟩
    · exact Or.inl old

theorem closeFile_same : (closeFile s).phase = s.phase ∧ (closeFile s).due = s.due ∧
    (closeFile s).now = s.now ∧ (closeFile s).archive = s.archive := by
  unfold closeFile
  cases s.writing with
  | none | some name => exact ⟨rfl, rfl, rfl, rfl⟩

theorem openFile_inv (inv : Inv preEventMs s) (name : Text)
    (reopened : ∀ file ∈ (closeFile s).ring, file.closed = true → promised preEventMs s file →
      file.name ≠ name) : Inv preEventMs (openFile s name) := by
  obtain ⟨phase, due, now, archive⟩ := closeFile_same (s := s)
  have stays : ∀ file ∈ (closeFile s).ring, file.closed = true → promised preEventMs s file →
      file ∈ (openFile s name).ring := by
    intro file member closed kept
    apply mem_append_left
    exact mem_filter.mpr ⟨member, decide_eq_true (reopened file member closed kept)⟩
  have beside : Beside preEventMs s (openFile s name) := by
    refine ⟨phase, due, ?_, ?_, ?_, ?_⟩
    · show s.now ≤ (closeFile s).now
      rw [now]
    · intro file member kept
      rcases closeFile_segments file member with old | ⟨inRing, closed⟩
      · exact Or.inl old
      · exact Or.inr (stays file inRing closed kept)
    · intro file member closed kept
      exact stays file (closeFile_ring inv file member closed) closed kept
    · intro file _ archived
      show InArchive (closeFile s).archive file
      rw [archive]
      exact archived
  apply inv_beside inv beside
  · have names : ((closeFile s).ring.map RingFile.name).Nodup := by
      rw [closeFile_names]
      exact inv.ring
    show (List.map RingFile.name (_ ++ [_])).Nodup
    rw [map_append]
    apply List.Nodup.append
    · exact List.Nodup.sublist (List.Sublist.map _ filter_sublist) names
    · exact nodup_singleton name
    · intro other first second
      obtain ⟨file, member, rfl⟩ := mem_map.mp first
      have apart := of_decide_eq_true (mem_filter.mp member).2
      exact apart (mem_singleton.mp second)
  · show ((closeFile s).archive.map Archived.name).Nodup
    rw [archive]
    exact inv.archive
  · intro file member writing
    have named : name = file.name := Option.some.inj writing
    rcases mem_append.mp member with old | new
    · have apart := of_decide_eq_true (mem_filter.mp old).2
      exact absurd named.symm apart
    · rw [mem_singleton.mp new]
  · intro file member
    rcases closeFile_segments file member with old | ⟨-, closed⟩
    · exact inv.segments file old
    · exact closed

theorem write_inv (inv : Inv preEventMs s) (name : Text) (writing : s.writing = some name) :
    Inv preEventMs
      { s with ring := updateAt RingFile.name s.ring name (RingFile.written s.now) } := by
  have beside : Beside preEventMs s
      { s with ring := updateAt RingFile.name s.ring name (RingFile.written s.now) } := by
    refine ⟨rfl, rfl, le_refl _, fun _ member _ => Or.inl member, ?_, fun _ _ archived => archived⟩
    intro file member closed _
    exact ring_updateAt s name _ file member (not_writing inv writing member closed)
  apply inv_beside inv beside
  · have names : (updateAt RingFile.name s.ring name (RingFile.written s.now)).map RingFile.name =
        s.ring.map RingFile.name := map_updateAt _ _ _ _ _ fun _ => rfl
    rw [names]
    exact inv.ring
  · exact inv.archive
  · intro file member opened
    obtain ⟨old, inRing, rfl⟩ := mem_map.mp member
    split at opened
    · rename_i named
      rw [if_pos named]
      exact inv.writing old inRing opened
    · rename_i named
      rw [if_neg named]
      exact inv.writing old inRing opened
  · exact inv.segments

theorem removeFile_ring (name : Text) (file : RingFile) (member : file ∈ s.ring)
    (other : file.name ≠ name) : file ∈ (removeFile s name).ring :=
  mem_filter.mpr ⟨member, decide_eq_true other⟩

theorem filter_names (inv : Inv preEventMs s) (keep : RingFile → Bool) :
    ((s.ring.filter keep).map RingFile.name).Nodup :=
  List.Nodup.sublist (List.Sublist.map _ filter_sublist) inv.ring

theorem prune_inv (inv : Inv preEventMs s)
    (pruned : s.buffering = true → ∀ file ∈ s.ring, file.closed = true →
      promised preEventMs s file → s.now - file.mtimeMs ≤ preEventMs + 6000) :
    Inv preEventMs (prune preEventMs s) := by
  unfold prune
  split
  · rename_i buffering
    apply inv_beside inv
    · refine ⟨rfl, rfl, le_refl _, fun _ member _ => Or.inl member, ?_,
        fun _ _ archived => archived⟩
      intro file member closed kept
      exact mem_filter.mpr ⟨member, decide_eq_true (pruned buffering file member closed kept)⟩
    · exact filter_names inv _
    · exact inv.archive
    · exact fun file member => inv.writing file (mem_of_mem_filter member)
    · exact inv.segments
  · exact inv

variable (archive : List Archived)

theorem record_names (name : Text) (distinct : (archive.map Archived.name).Nodup) :
    ((record archive name).map Archived.name).Nodup := by
  unfold record
  split
  · rename_i absent
    rw [map_append]
    apply distinct.append (nodup_singleton name)
    intro other first second
    obtain ⟨entry, member, rfl⟩ := mem_map.mp first
    exact lookup_eq_none absent entry member (mem_singleton.mp second)
  · rw [map_updateAt]
    · exact distinct
    · intro entry
      unfold Archived.recorded
      split <;> rfl

theorem record_archived (name : Text) (file : RingFile)
    (spared : ∀ entry ∈ archive, entry.name = name → entry.files = .ts → entry.segment ≠ some file)
    (archived : InArchive archive file) : InArchive (record archive name) file := by
  obtain ⟨entry, member, named, held⟩ := archived
  unfold record
  split
  · exact ⟨entry, mem_append_left _ member, named, held⟩
  · refine ⟨_, mem_map_of_mem member, ?_⟩
    split
    · rename_i here
      unfold Archived.recorded
      split
      · rename_i ts
        exact absurd held (spared entry member here ts)
      all_goals exact ⟨named, held⟩
    · exact ⟨named, held⟩

theorem remux_archived (name : Text) (file : RingFile) (archived : InArchive archive file) :
    InArchive (updateAt Archived.name archive name Archived.remuxed) file := by
  obtain ⟨entry, member, named, held⟩ := archived
  refine ⟨_, mem_map_of_mem member, ?_⟩
  split
  all_goals exact ⟨named, held⟩

end Frame

section Promotion

variable {preEventMs : Nat} {s : Camera}

theorem mem_dropLast_of_later {files : List RingFile}
    (sorted : files.Pairwise fun first second => first.name ≤ second.name) {file later : RingFile}
    (member : file ∈ files) (there : later ∈ files) (after : file.name < later.name) :
    file ∈ files.dropLast := by
  have some : files ≠ [] := ne_nil_of_mem member
  have split := dropLast_append_getLast some
  rw [← split] at member
  rcases mem_append.mp member with early | last
  · exact early
  · have same := mem_singleton.mp last
    have order : ∀ other ∈ files, other.name ≤ (files.getLast some).name := by
      intro other inFiles
      rw [← split] at inFiles sorted
      rcases mem_append.mp inFiles with early | final
      · exact (pairwise_append.mp sorted).2.2 other early _ (mem_singleton_self _)
      · rw [mem_singleton.mp final]
    rw [same] at after
    exact absurd (order later there) (not_le.mpr after)

theorem mem_candidates (triggerAt : Int) (file : RingFile) (member : file ∈ s.ring)
    (after : triggerAt - preEventMs ≤ file.mtimeMs) (before : file.mtimeMs ≤ triggerAt + 2000)
    (later : ∃ later ∈ s.ring, file.name < later.name) :
    file.name ∈ candidates preEventMs s triggerAt := by
  obtain ⟨other, there, order⟩ := later
  apply mem_map_of_mem
  refine mem_filter.mpr ⟨?_, ?_⟩
  · exact mem_dropLast_of_later (pairwise_insertionSort _ s.ring)
      ((mem_insertionSort _).mpr member) ((mem_insertionSort _).mpr there) order
  · rw [Bool.and_eq_true]
    exact ⟨decide_eq_true after, decide_eq_true before⟩

/-- What the move of one file does to the others, and to the archive. -/
structure Moved (s t : Camera) (name : Text) : Prop where
  now : t.now = s.now
  buffering : t.buffering = s.buffering
  writing : t.writing = s.writing
  segments : t.segments = s.segments
  due : t.due = s.due
  ring : t.ring.Sublist s.ring
  others : ∀ file ∈ s.ring, file.name ≠ name → file ∈ t.ring
  archive : ∀ file, InArchive s.archive file → InArchive t.archive file
  distinct : (s.archive.map Archived.name).Nodup → (t.archive.map Archived.name).Nodup

theorem promoteFile_moved (moves remuxes : Bool) (s : Camera) (name : Text) :
    Moved s (promoteFile moves remuxes s name) name := by
  have same : Moved s s name :=
    ⟨rfl, rfl, rfl, rfl, rfl, List.Sublist.refl _, fun _ member _ => member,
      fun _ archived => archived, id⟩
  have removed : Moved s (removeFile s name) name :=
    ⟨rfl, rfl, rfl, rfl, rfl, filter_sublist, fun file => removeFile_ring name file,
      fun _ archived => archived, id⟩
  unfold promoteFile
  split
  · exact same
  · rename_i file found
    split
    · split
      · exact same
      · exact removed
    · rename_i free
      split
      · refine { removed with archive := ?_, distinct := ?_ }
        · rintro other ⟨entry, member, held⟩
          exact ⟨entry, mem_append_left _ member, held⟩
        · intro distinct
          rw [map_append]
          apply distinct.append (nodup_singleton _)
          intro other first second
          obtain ⟨entry, member, rfl⟩ := mem_map.mp first
          exact lookup_eq_none free entry member (mem_singleton.mp second)
      · exact same

theorem promoteFile_archived (inv : Inv preEventMs s) (remuxes : Bool) (file : RingFile)
    (member : file ∈ s.ring)
    (free : ∀ entry ∈ s.archive, entry.name ≠ destName file.mtimeMs) :
    InArchive (promoteFile true remuxes s file.name).archive file := by
  have absent : lookup Archived.name s.archive (destName file.mtimeMs) = none := by
    cases found : lookup Archived.name s.archive (destName file.mtimeMs) with
    | none => rfl
    | some entry =>
      obtain ⟨there, named⟩ := lookup_mem found
      exact absurd named (free entry there)
  rw [promoteFile, lookup_eq_some inv.ring member]
  dsimp only
  rw [absent]
  exact ⟨_, mem_append_right _ (mem_singleton_self _), rfl, rfl⟩

theorem promoteFile_kept (inv : Inv preEventMs s) (moves remuxes : Bool) (file : RingFile)
    (member : file ∈ s.ring)
    (apart : moves = true → ∀ entry ∈ s.archive, entry.name = destName file.mtimeMs →
      entry.files ≠ .mp4) :
    file ∈ (promoteFile moves remuxes s file.name).ring ∨
      InArchive (promoteFile moves remuxes s file.name).archive file := by
  rw [promoteFile, lookup_eq_some inv.ring member]
  dsimp only
  cases found : lookup Archived.name s.archive (destName file.mtimeMs) with
  | some entry =>
    dsimp only
    have stays : (entry.files ≠ .mp4 || !moves) = true := by
      cases moves with
      | false => simp
      | true =>
        obtain ⟨there, named⟩ := lookup_mem found
        simp [apart rfl entry there named]
    rw [if_pos stays]
    exact Or.inl member
  | none =>
    cases moves with
    | false => exact Or.inl member
    | true => exact Or.inr ⟨_, mem_append_right _ (mem_singleton_self _), rfl, rfl⟩

theorem moved_inv (inv : Inv preEventMs s) {t : Camera} {name : Text} (moved : Moved s t name)
    (phase : Phase) (clock : ∀ bound, phase.since preEventMs s.now = some bound →
      bound + preEventMs ≤ s.now)
    (covered : Covered preEventMs { t with phase := phase }) :
    Inv preEventMs { t with phase := phase } where
  ring := (List.Sublist.map _ moved.ring).nodup inv.ring
  archive := moved.distinct inv.archive
  writing := by
    intro file member opened
    rw [moved.writing] at opened
    exact inv.writing file (moved.ring.subset member) opened
  segments := by
    rw [moved.segments]
    exact inv.segments
  due := by
    rw [moved.due]
    exact inv.due
  clock := by
    rw [moved.now]
    exact clock
  covered := covered

theorem promoteFirst_inv (inv : Inv preEventMs s) (moves remuxes : Bool) (triggeredAtMs : Int)
    (name : Text) (rest : List Text) (phase : s.phase = .promoting triggeredAtMs (name :: rest))
    (first : ∀ file ∈ s.ring, file.name = name → file.closed = true →
      promised preEventMs s file → moves = true → ∀ entry ∈ s.archive,
      entry.name = destName file.mtimeMs → entry.files ≠ .mp4) :
    Inv preEventMs
      { promoteFile moves remuxes s name with phase := .promoting triggeredAtMs rest } := by
  have moved := promoteFile_moved moves remuxes s name
  have clock := inv.clock
  have covered := inv.covered
  rw [phase] at clock
  rw [Covered, phase] at covered
  apply moved_inv inv moved (.promoting triggeredAtMs rest) clock
  intro file member within
  have old : file ∈ s.segments := by
    rw [← moved.segments]
    exact member
  have kept : promised preEventMs s file := by
    rw [promised, phase]
    exact within
  rcases covered file old within with inRing | archived
  · by_cases here : file.name = name
    · rw [← here]
      exact promoteFile_kept inv moves remuxes file inRing
        (first file inRing here (inv.segments file old) kept)
    · exact Or.inl (moved.others file inRing here)
  · exact Or.inr (moved.archive file archived)

theorem promoteSecond_inv (inv : Inv preEventMs s) (moves remuxes : Bool)
    (triggeredAtMs confirmedMs : Int) (name : Text) (rest : List Text)
    (phase : s.phase = .catchingUp triggeredAtMs confirmedMs (name :: rest))
    (second : ∀ file ∈ s.ring, file.name = name → file.closed = true →
      promised preEventMs s file → moves = true ∧ ∀ entry ∈ s.archive,
      entry.name ≠ destName file.mtimeMs) :
    Inv preEventMs { promoteFile moves remuxes s name with
      phase := .catchingUp triggeredAtMs confirmedMs rest } := by
  have moved := promoteFile_moved moves remuxes s name
  have covered := inv.covered
  rw [Covered, phase] at covered
  apply moved_inv inv moved (.catchingUp triggeredAtMs confirmedMs rest) nofun
  intro file member
  have old : file ∈ s.due := by
    rw [← moved.due]
    exact member
  rcases covered file old with archived | ⟨inRing, left⟩
  · exact Or.inl (moved.archive file archived)
  · have kept : promised preEventMs s file := by
      rw [promised, phase]
      exact ⟨old, left⟩
    by_cases here : file.name = name
    · obtain ⟨works, free⟩ := second file inRing here (inv.due file old) kept
      rw [← here, works]
      exact Or.inl (promoteFile_archived inv remuxes file inRing free)
    · refine Or.inr ⟨moved.others file inRing here, ?_⟩
      rcases mem_cons.mp left with same | later
      · exact absurd same here
      · exact later

theorem started_inv (inv : Inv preEventMs s) (triggeredAtMs : Int)
    (phase : s.phase = .starting triggeredAtMs)
    (reached : ∀ file ∈ s.ring, file.closed = true → promised preEventMs s file →
      s.buffering = true ∧ s.now - preEventMs ≤ file.mtimeMs ∧ file.mtimeMs ≤ s.now + 2000 ∧
        ∃ later ∈ s.ring, file.name < later.name) :
    Inv preEventMs
      { s with
        due := s.segments.filter fun file => triggeredAtMs - preEventMs ≤ file.mtimeMs
        phase := if s.buffering then
          .catchingUp triggeredAtMs s.now (candidates preEventMs s s.now)
          else .stopping triggeredAtMs s.now } where
  ring := inv.ring
  archive := inv.archive
  writing := inv.writing
  segments := inv.segments
  due := fun file member => inv.segments file (mem_of_mem_filter member)
  clock := by
    intro bound since
    split at since
    all_goals cases since
  covered := by
    have covered := inv.covered
    rw [Covered, phase] at covered
    have ended : ∀ file ∈ s.segments.filter
        fun file => triggeredAtMs - preEventMs ≤ file.mtimeMs, InArchive s.archive file ∨
          file ∈ s.ring ∧ s.buffering = true ∧ file.name ∈ candidates preEventMs s s.now := by
      intro file member
      obtain ⟨old, window⟩ := mem_filter.mp member
      have within := of_decide_eq_true window
      rcases covered file old within with inRing | archived
      · have kept : promised preEventMs s file := by
          rw [promised, phase]
          exact within
        obtain ⟨buffering, after, before, later⟩ :=
          reached file inRing (inv.segments file old) kept
        exact Or.inr ⟨inRing, buffering, mem_candidates s.now file inRing after before later⟩
      · exact Or.inl archived
    cases buffering : s.buffering with
    | true =>
      intro file member
      rcases ended file member with archived | ⟨inRing, -, listed⟩
      · exact Or.inl archived
      · exact Or.inr ⟨inRing, listed⟩
    | false =>
      intro file member
      rcases ended file member with archived | ⟨-, up, -⟩
      · exact Or.inl archived
      · rw [buffering] at up
        cases up

end Promotion

section Runs

variable {preEventMs : Nat} {s t : Camera}

/-- A step of the trigger that leaves the ring, the archive and the books alone. -/
theorem inv_phase (inv : Inv preEventMs s) (buffering : Bool) (writing : Option Text)
    (opened : ∀ file ∈ s.ring, writing = some file.name → file.closed = false) (phase : Phase)
    (clock : ∀ bound, phase.since preEventMs s.now = some bound → bound + preEventMs ≤ s.now)
    (covered : Covered preEventMs
      { s with buffering := buffering, writing := writing, phase := phase }) :
    Inv preEventMs { s with buffering := buffering, writing := writing, phase := phase } :=
  ⟨inv.ring, inv.archive, opened, inv.segments, inv.due, clock, covered⟩

theorem step_inv {a : Event} (inv : Inv preEventMs s) (regular : Regular preEventMs s a)
    (taken : step preEventMs s a = some t) : Inv preEventMs t := by
  have covered := inv.covered
  have clock := inv.clock
  cases a with
  | elapse ms =>
    cases taken
    apply inv_beside inv
    · refine ⟨rfl, rfl, ?_, fun _ member _ => Or.inl member, fun _ member _ _ => member,
        fun _ _ archived => archived⟩
      show s.now ≤ s.now + ms
      omega
    · exact inv.ring
    · exact inv.archive
    · exact inv.writing
    · exact inv.segments
  | startPreBuffer =>
    cases taken
    exact inv_phase inv true s.writing inv.writing s.phase clock covered
  | openFile name =>
    rw [step] at taken
    split at taken
    · cases taken
      exact openFile_inv inv name (regular.reopened name rfl)
    · cases taken
  | write =>
    obtain ⟨name, writing, rfl⟩ := Option.map_eq_some_iff.mp taken
    exact write_inv inv name writing
  | exit =>
    cases taken
    exact inv_phase inv false none nofun s.phase clock covered
  | prune =>
    cases taken
    exact prune_inv inv (regular.pruned rfl)
  | record name =>
    cases taken
    apply inv_beside inv
    · refine ⟨rfl, rfl, le_refl _, fun _ member _ => Or.inl member, fun _ member _ _ => member, ?_⟩
      intro file counted archived
      apply record_archived s.archive name file ?_ archived
      intro entry member named ts held
      exact regular.overwritten name rfl entry member named ts file held counted
    · exact inv.ring
    · exact record_names s.archive name inv.archive
    · exact inv.writing
    · exact inv.segments
  | remux name =>
    cases taken
    apply inv_beside inv
    · exact ⟨rfl, rfl, le_refl _, fun _ member _ => Or.inl member, fun _ member _ _ => member,
        fun file _ => remux_archived s.archive name file⟩
    · exact inv.ring
    · have names : (updateAt Archived.name s.archive name Archived.remuxed).map Archived.name =
          s.archive.map Archived.name := map_updateAt _ _ _ _ _ fun _ => rfl
      rw [names]
      exact inv.archive
    · exact inv.writing
    · exact inv.segments
  | trigger =>
    rw [step] at taken
    split at taken
    · rename_i phase
      cases taken
      rw [phase] at clock
      rw [Covered, phase] at covered
      exact inv_phase inv s.buffering s.writing inv.writing _ clock covered
    · cases taken
  | promotePreRoll =>
    rw [step] at taken
    split at taken
    · rename_i triggeredAtMs phase
      rw [phase] at clock
      rw [Covered, phase] at covered
      split at taken
      all_goals
        cases taken
        exact inv_phase inv s.buffering s.writing inv.writing _ clock covered
    · cases taken
  | promote moves remuxes =>
    rw [step] at taken
    split at taken
    · rename_i triggeredAtMs name rest phase
      cases taken
      exact promoteFirst_inv inv moves remuxes triggeredAtMs name rest phase
        (regular.first moves remuxes triggeredAtMs name rest rfl phase)
    · rename_i triggeredAtMs confirmedMs name rest phase
      cases taken
      exact promoteSecond_inv inv moves remuxes triggeredAtMs confirmedMs name rest phase
        (regular.second moves remuxes triggeredAtMs confirmedMs name rest rfl phase)
    · cases taken
  | endPromotion =>
    rw [step] at taken
    split at taken
    · rename_i triggeredAtMs phase
      cases taken
      rw [phase] at clock
      rw [Covered, phase] at covered
      exact inv_phase inv s.buffering s.writing inv.writing _ clock covered
    · rename_i triggeredAtMs confirmedMs phase
      cases taken
      rw [Covered, phase] at covered
      exact inv_phase inv s.buffering s.writing inv.writing _ nofun covered
    · cases taken
  | started =>
    rw [step] at taken
    split at taken
    · rename_i triggeredAtMs phase
      cases taken
      exact started_inv inv triggeredAtMs phase (regular.reached rfl)
    · cases taken
  | startFailed =>
    rw [step] at taken
    split at taken
    · rename_i triggeredAtMs phase
      cases taken
      rw [phase] at clock
      rw [Covered, phase] at covered
      have before := clock _ rfl
      apply inv_phase inv s.buffering s.writing inv.writing
      · rintro bound ⟨⟩
        omega
      · intro file member within
        apply covered file member
        have counted : s.now - preEventMs ≤ file.mtimeMs := within
        omega
    · cases taken
  | stopPreBuffer =>
    rw [step] at taken
    split at taken
    · rename_i triggeredAtMs confirmedMs phase
      rw [Covered, phase] at covered
      split at taken
      · cases taken
        exact inv_phase inv false none nofun _ nofun covered
      · cases taken
        exact inv_phase inv s.buffering s.writing inv.writing _ nofun covered
    · cases taken
  | unlink =>
    rw [step] at taken
    split at taken
    · rename_i triggeredAtMs confirmedMs name rest phase
      cases taken
      rw [Covered, phase] at covered
      refine ⟨filter_names inv _, inv.archive, ?_, inv.segments, inv.due, nofun, ?_⟩
      · exact fun file member => inv.writing file (mem_of_mem_filter member)
      · intro file member
        rcases covered file member with archived | ⟨-, none⟩
        · exact Or.inl archived
        · cases none
    · rename_i triggeredAtMs confirmedMs phase
      cases taken
      rw [Covered, phase] at covered
      exact inv_phase inv s.buffering s.writing inv.writing _ nofun covered
    · cases taken
  | rearm =>
    rw [step] at taken
    split at taken
    · cases taken
      refine ⟨inv.ring, inv.archive, inv.writing, ?_, nofun, ?_, ?_⟩
      · exact fun file member => (mem_filter.mp member).2
      · rintro bound ⟨⟩
        omega
      · exact fun file member _ => Or.inl (mem_of_mem_filter member)
    · cases taken

theorem WellFormed.inv (start : WellFormed s) : Inv preEventMs s where
  ring := start.ring
  archive := start.archive
  writing := start.writing
  segments := by
    rw [start.segments]
    exact fun file member => (mem_filter.mp member).2
  due := by
    rw [start.due]
    nofun
  clock := by
    rw [start.idle]
    rintro bound ⟨⟩
    omega
  covered := by
    rw [Covered, start.idle, start.segments]
    exact fun file member _ => Or.inl (mem_of_mem_filter member)

theorem Inv.kept (inv : Inv preEventMs s) : Kept s where
  archived := by
    intro ended
    have covered := inv.covered
    unfold Covered at covered
    cases phase : s.phase with
    | idle | triggered triggeredAtMs | promoting triggeredAtMs queue | starting triggeredAtMs
    | catchingUp triggeredAtMs confirmedMs queue =>
      rw [phase] at ended
      cases ended
    | stopping triggeredAtMs confirmedMs | wiping triggeredAtMs confirmedMs queue
    | recording triggeredAtMs confirmedMs =>
      rw [phase] at covered
      intro file member
      simpa [Phase.left] using covered file member
  distinct := inv.archive

/-- Wherever the clock, the ring, the pruner, the archive and the recorder are when it happens: in a
run of regular steps no segment that counts is wiped before it is in the archive. -/
theorem preRoll_kept (preEventMs : Nat) (start : Camera) (wellFormed : WellFormed start)
    (events : List Event)
    (regular : Runs.Allowed (step preEventMs) (Regular preEventMs) start events)
    (n : Nat) (s : Camera) (reached : Runs.run (step preEventMs) start (events.take n) = some s) :
    Kept s := by
  have preserves : Runs.Preserves (step preEventMs) (Regular preEventMs) (Inv preEventMs) :=
    fun _ _ _ regular inv taken => step_inv inv regular taken
  exact (Runs.invariant_along _ preserves start s events n regular wellFormed.inv reached).kept

/-- The regular steps, as far as a computation can tell. -/
def calm (preEventMs : Nat) (s : Camera) : Event → Bool
  | .prune => !s.buffering || s.ring.all fun file =>
    !(file.closed && promised preEventMs s file) || s.now - file.mtimeMs ≤ preEventMs + 6000
  | .openFile name => (closeFile s).ring.all fun file =>
    !(file.closed && promised preEventMs s file) || file.name ≠ name
  | .record name => s.archive.all fun entry => entry.name ≠ name
  | .promote moves _ => moves && s.ring.all fun file => s.archive.all fun entry =>
    entry.name ≠ destName file.mtimeMs
  | .started => s.ring.all fun file => !(file.closed && promised preEventMs s file) ||
      s.buffering && s.now - preEventMs ≤ file.mtimeMs && file.mtimeMs ≤ s.now + 2000 &&
        s.ring.any fun later => file.name < later.name
  | _ => true

theorem calm_regular (preEventMs : Nat) (s : Camera) (a : Event)
    (quiet : calm preEventMs s a = true) : Regular preEventMs s a where
  pruned := by
    rintro rfl buffering file member closed kept
    simp only [calm, buffering, Bool.not_true, Bool.false_or, all_eq_true] at quiet
    simpa [closed, kept] using quiet file member
  reopened := by
    rintro name rfl file member closed kept
    simp only [calm, all_eq_true] at quiet
    simpa [closed, kept] using quiet file member
  overwritten := by
    rintro name rfl entry member named
    simp only [calm, all_eq_true, decide_eq_true_eq] at quiet
    exact absurd named (quiet entry member)
  first := by
    rintro moves remuxes triggeredAtMs name rest rfl _ file member _ _ _ _ entry there named
    simp only [calm, Bool.and_eq_true, all_eq_true, decide_eq_true_eq] at quiet
    exact absurd named (quiet.2 file member entry there)
  second := by
    rintro moves remuxes triggeredAtMs confirmedMs name rest rfl _ file member _ _ _
    simp only [calm, Bool.and_eq_true, all_eq_true, decide_eq_true_eq] at quiet
    exact ⟨quiet.1, quiet.2 file member⟩
  reached := by
    rintro rfl file member closed kept
    simp only [calm, all_eq_true] at quiet
    simpa [closed, kept, and_assoc] using quiet file member

end Runs

/-- The ring of a camera that has just been armed. -/
def armed : Camera := ⟨1785924000000, true, none, [], [], .idle, [], []⟩

theorem armed_wellFormed : WellFormed armed :=
  ⟨nodup_nil, nodup_nil, nofun, rfl, rfl, rfl⟩

def ringName (n : Nat) : Text := "2026-08-05_10-00-".toList ++ p2 n ++ ".ts".toList

/-- A trigger two seconds after the ring began, with what happens until the recorder is there, and
the end of the ring. -/
def recorderStart (meanwhile : List Event) : List Event :=
  [.openFile (ringName 0), .elapse 2000, .openFile (ringName 2), .trigger, .promotePreRoll,
    .promote true true, .endPromotion] ++ meanwhile ++
    [.started, .promote true true, .endPromotion, .stopPreBuffer, .unlink, .unlink]

def quickStart : List Event :=
  recorderStart [.elapse 3000, .prune, .openFile (ringName 5)]

theorem quickStart_kept :
    (Runs.run (step 5000) armed quickStart).isSome = true ∧
      ∀ n s, Runs.run (step 5000) armed (quickStart.take n) = some s → Kept s := by
  refine ⟨by decide +kernel, ?_⟩
  intro n s reached
  apply preRoll_kept 5000 armed armed_wellFormed quickStart ?_ n s reached
  apply Runs.Allowed.mono (step 5000) (calm_regular 5000)
  apply Runs.allowedBy_allowed
  decide +kernel

def slowStart : List Event :=
  recorderStart
    [.elapse 3000, .openFile (ringName 5), .elapse 7000, .prune, .openFile (ringName 12)]

/-- A segment that ends after the trigger and long before the recorder is there is wiped. -/
theorem slowStart_lost : ¬∀ preEventMs start, WellFormed start →
    ∀ (events : List Event) n s,
    Runs.run (step preEventMs) start (events.take n) = some s → Kept s := by
  intro always
  have ends : (Runs.run (step 5000) armed (slowStart.take slowStart.length)).isSome = true := by
    decide +kernel
  obtain ⟨s, reached⟩ := Option.isSome_iff_exists.mp ends
  have facts : (Runs.run (step 5000) armed (slowStart.take slowStart.length)).all (fun s =>
      s.phase.ended && s.due.any fun file => s.archive.all fun entry =>
        entry.segment ≠ some file) = true := by decide +kernel
  rw [reached, Option.all_some, Bool.and_eq_true, any_eq_true] at facts
  obtain ⟨ended, file, member, absent⟩ := facts
  obtain ⟨entry, there, -, held⟩ :=
    (always 5000 armed armed_wellFormed slowStart _ s reached).archived ended file member
  have other := all_eq_true.mp absent entry there
  exact of_decide_eq_true other held

end DracVms.PreRoll
