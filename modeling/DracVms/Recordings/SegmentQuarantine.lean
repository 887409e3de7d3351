import DracVms.Recordings.SegmentScan
import DracVms.Recordings.SegmentRemuxCrash

namespace DracVms.SegmentScan

open List

open Json (Text)
open KeyedList
open SegmentRemux

theorem maxAttempts_pos (configured : Option Rat) : 0 < getSegmentRemuxMaxAttempts configured := by
  unfold getSegmentRemuxMaxAttempts
  split
  · decide
  · split
    · rename_i n above
      have whole : (1 : Int) ≤ n.floor := Rat.le_floor_iff.mpr above
      omega
    · decide

variable (seg : Segment)

theorem apply_rows (effect : Effect) : seg.rows ≤ (effect.apply seg).rows := by
  cases effect with
  | saveRow =>
    show seg.rows ≤ if seg.rows = 0 then 1 else seg.rows
    split <;> omega
  | writeMp4 video | removeMp4 | removeTs => exact le_refl _
  | forget kind | fail kind maxAttempts marks => cases kind <;> exact le_refl _

variable (effects : List Effect)

theorem applyAll_rows (seg : Segment) : seg.rows ≤ (applyAll seg effects).rows := by
  induction effects generalizing seg with
  | nil => exact le_refl _
  | cons effect rest ih => exact (apply_rows seg effect).trans (ih (effect.apply seg))

/-- The effect is on the counters or the marker of the `.ts`. -/
def countsTs : Effect → Bool
  | .forget .ts => true
  | .fail .ts _ _ => true
  | _ => false

theorem applyAll_tsQuarantine (seg : Segment)
    (others : ∀ effect ∈ effects, countsTs effect = false) :
    (applyAll seg effects).tsQuarantine = seg.tsQuarantine := by
  induction effects generalizing seg with
  | nil => rfl
  | cons effect rest ih =>
    have later := ih (effect.apply seg) fun other member =>
      others other (mem_cons_of_mem _ member)
    refine later.trans ?_
    have here := others effect mem_cons_self
    cases effect with
    | writeMp4 video | removeMp4 | saveRow | removeTs => rfl
    | forget kind | fail kind maxAttempts marks =>
      cases kind with
      | ts => cases here
      | mp4 => rfl

theorem removal_uncounted (o : Oracle) : ∀ effect ∈ o.removal, countsTs effect = false := by
  intro effect member
  rw [mem_removal member]
  rfl

theorem remuxAndRegister_uncounted (o : Oracle) (seg : Segment) :
    ∀ effect ∈ (remuxAndRegisterTsSegment o seg).1, countsTs effect = false := by
  have writes : ∀ effect ∈ (remuxTs o seg).1, countsTs effect = false := by
    intro effect member
    have written := remuxTs_writes o seg effect member
    cases effect with
    | writeMp4 video | removeMp4 => rfl
    | saveRow | removeTs | forget kind | fail kind maxAttempts marks => cases written
  have removal := removal_uncounted o
  have saved : countsTs .saveRow = false := rfl
  rcases remuxAndRegister_cases o seg with ⟨-, same⟩ | same | ⟨rows, saves, same⟩
  · grind
  · grind
  · grind

variable (maxAttempts : Nat)

theorem attemptTs_eq (o : Oracle) (seg : Segment) :
    attemptTs maxAttempts o seg = ((remuxAndRegisterTsSegment o seg).1 ++
      [if (remuxAndRegisterTsSegment o seg).2 = .failed then .fail .ts maxAttempts o.marks
        else .forget .ts], (remuxAndRegisterTsSegment o seg).2) :=
  rfl

theorem attemptTs_quarantine (o : Oracle) (seg : Segment) :
    (applyAll seg (attemptTs maxAttempts o seg).1).tsQuarantine =
      if (attemptTs maxAttempts o seg).2 = .failed then
        (registerSegmentRemuxFailure maxAttempts o.marks seg.tsQuarantine).1
      else { seg.tsQuarantine with failures := 0 } := by
  have kept := applyAll_tsQuarantine _ seg (remuxAndRegister_uncounted o seg)
  rw [attemptTs_eq, applyAll_append]
  split
  · show (registerSegmentRemuxFailure maxAttempts o.marks
      (applyAll seg (remuxAndRegisterTsSegment o seg).1).tsQuarantine).1 = _
    rw [kept]
  · show Quarantine.mk 0 (applyAll seg (remuxAndRegisterTsSegment o seg).1).tsQuarantine.marker = _
    rw [kept]

/-- A `.ts` that is gone has a row. -/
def Kept (seg : Segment) : Prop := seg.ts = none → 0 < seg.rows

theorem writes_kept (seg : Segment) (kept : Kept seg)
    (writes : ∀ effect ∈ effects, effect.writes = true) : Throughout Kept seg effects := by
  induction effects generalizing seg with
  | nil => exact kept
  | cons effect rest ih =>
    refine ⟨kept, ih _ ?_ fun other member => writes other (mem_cons_of_mem _ member)⟩
    have here := writes effect mem_cons_self
    cases effect with
    | writeMp4 video | removeMp4 => exact kept
    | saveRow | removeTs | forget kind | fail kind maxAttempts marks => cases here

theorem count_kept (kept : Kept seg) (effect : Effect)
    (counts : (∃ kind, effect = .forget kind) ∨ ∃ kind maxAttempts marks,
      effect = .fail kind maxAttempts marks) : Throughout Kept seg [effect] := by
  refine ⟨kept, ?_⟩
  rcases counts with ⟨kind, rfl⟩ | ⟨kind, maxAttempts, marks, rfl⟩
  all_goals cases kind <;> exact kept

theorem removal_kept (o : Oracle) (seg : Segment) (row : 0 < seg.rows) :
    Throughout Kept seg o.removal := by
  unfold Oracle.removal
  split
  · exact ⟨fun _ => row, fun _ => row⟩
  · exact fun _ => row

theorem registerSegment_named (o : Oracle) (seg : Segment) (named : seg.named = true) :
    registerSegment o seg = ([.saveRow], true) ∨ registerSegment o seg = ([], false) := by
  rcases registerSegment_cases o seg with saved | refused | ⟨other, -⟩
  · exact Or.inl saved
  · exact Or.inr refused
  · simp [named] at other

theorem save_row : 0 < (Effect.saveRow.apply seg).rows := by
  show 0 < if seg.rows = 0 then 1 else seg.rows
  split <;> omega

theorem attemptTs_kept (o : Oracle) (seg : Segment) (kept : Kept seg) (solid : seg.ts ≠ some 0)
    (named : seg.named = true) : Throughout Kept seg (attemptTs maxAttempts o seg).1 := by
  have remux := writes_kept (remuxTs o seg).1 seg kept (remuxTs_writes o seg)
  have attempt : Throughout Kept seg (remuxAndRegisterTsSegment o seg).1 := by
    rcases remuxAndRegister_cases o seg with ⟨none, -⟩ | failed | ⟨rows, saved, done⟩
    · exact absurd none solid
    · rw [failed]
      exact remux
    · obtain rfl : rows = [.saveRow] := saved.resolve_right fun other => by simp [named] at other
      have row := save_row (applyAll seg (remuxTs o seg).1)
      have both : Throughout Kept seg ((remuxTs o seg).1 ++ [.saveRow]) :=
        remux.append ⟨remux.ends, fun _ => row⟩
      rw [done]
      apply both.append
      rw [applyAll_append]
      exact removal_kept o _ row
  rw [attemptTs_eq]
  refine attempt.append (count_kept _ attempt.ends _ ?_)
  by_cases failed : (remuxAndRegisterTsSegment o seg).2 = .failed
  · rw [if_pos failed]
    exact Or.inr ⟨_, _, _, rfl⟩
  · rw [if_neg failed]
    exact Or.inl ⟨_, rfl⟩

theorem scanSegment_kept (o : Oracle) (seg : Segment) (kept : Kept seg) (solid : seg.ts ≠ some 0)
    (named : seg.named = true) : Throughout Kept seg (scanSegment maxAttempts o seg) := by
  unfold scanSegment
  split
  · exact kept
  · split
    · exact kept
    · rename_i size ts
      rw [if_neg fun none => solid (by rw [ts, none])]
      exact attemptTs_kept maxAttempts o seg kept solid named

theorem recoverFile_kept (o : Oracle) (registered : Bool) (seg : Segment) (kept : Kept seg)
    (solid : seg.ts ≠ some 0) (named : seg.named = true) (known : registered = true → 0 < seg.rows)
    (kind : Kind) : Throughout Kept seg (recoverFile maxAttempts o registered seg kind).1 := by
  cases kind with
  | ts =>
    rw [recoverFile, recoverTs]
    split
    · exact kept
    · split
      · rename_i twin
        exact removal_kept o seg (known twin)
      · exact attemptTs_kept maxAttempts o seg kept solid named
  | mp4 =>
    rw [recoverFile, recoverMp4]
    split
    · exact kept
    · have forgotten : Throughout Kept seg ([.saveRow] ++ [.forget .mp4]) :=
        ⟨kept, fun _ => save_row seg, fun _ => save_row seg⟩
      have failed : Throughout Kept seg ([] ++ [.fail .mp4 maxAttempts o.marks]) := ⟨kept, kept⟩
      cases seg.mp4 with
      | none => exact failed
      | some video =>
        dsimp only
        split
        · rcases registerSegment_named o seg named with saved | refused
          · rw [saved, if_pos rfl]
            exact forgotten
          · rw [refused, if_neg (by simp)]
            exact failed
        · rw [if_neg (by simp)]
          exact failed

/-- The file goes through the remux in this step. -/
inductive Attempts (s : Recorder) : Event → Oracle → Text → Segment → Prop where
  | scan (o : Oracle) (crash : Option Nat) (session : Session) (stem : Text) (rest : List Text)
      (seg : Segment) (active : s.active = some session) (next : session.queue = stem :: rest)
      (unknown : stem ∉ session.knownFiles) (found : s.segment stem = some seg)
      (present : seg.ts ≠ none) (called : attempts seg = true) :
      Attempts s (.visitFile o crash) o stem seg
  | recovery (o : Oracle) (crash : Option Nat) (recovery : Recovery) (stem : Text)
      (rest : List (Text × Kind)) (seg : Segment) (inactive : s.active = none)
      (running : s.recovery = some recovery) (next : recovery.candidates = (stem, .ts) :: rest)
      (found : s.segment stem = some seg) (called : recoveryAttempts recovery stem .ts seg = true)
      (solid : seg.ts ≠ some 0) : Attempts s (.visitCandidate o crash) o stem seg

/-- The scan that is not the last one looks into this file. -/
inductive Scans (s : Recorder) : Event → Text → Prop where
  | file (o : Oracle) (crash : Option Nat) (session : Session) (stem : Text) (rest : List Text)
      (active : s.active = some session) (next : session.queue = stem :: rest)
      (periodic : session.finalize = false) : Scans s (.visitFile o crash) stem

/-- The scan or the recovery comes to this file. -/
inductive Visits (s : Recorder) : Event → Text → Segment → Prop where
  | scan (o : Oracle) (crash : Option Nat) (session : Session) (stem : Text) (rest : List Text)
      (seg : Segment) (active : s.active = some session) (next : session.queue = stem :: rest)
      (found : s.segment stem = some seg) : Visits s (.visitFile o crash) stem seg
  | recovery (o : Oracle) (crash : Option Nat) (recovery : Recovery) (stem : Text) (kind : Kind)
      (rest : List (Text × Kind)) (seg : Segment) (running : s.recovery = some recovery)
      (next : recovery.candidates = (stem, kind) :: rest) (found : s.segment stem = some seg) :
      Visits s (.visitCandidate o crash) stem seg

/-- What a `.ts` with something in it is owed, and one in quarantine. -/
structure Owed (seg seg' : Segment) : Prop where
  registered : ∀ size, seg.ts = some size → 0 < size → seg'.ts = none → 0 < seg'.rows
  spared : seg.tsQuarantine.marker = true → seg.ts ≠ none →
    seg'.tsQuarantine.marker = true ∧ seg'.ts ≠ none

section Claim

variable (before : Text → Text → Prop) [DecidableRel before] (maxAttempts : Nat)

/-- What a step owes the `.ts` files. -/
structure Fine (s : Recorder) (a : Event) (t : Recorder) : Prop where
  bounded : ∀ o stem seg, Attempts s a o stem seg → s.tries stem < maxAttempts
  failed : ∀ o stem seg, Attempts s a o stem seg → (attemptTs maxAttempts o seg).2 = .failed →
    ∃ seg' ∈ t.segments, seg'.stem = stem ∧ seg'.ts = seg.ts
  kept : ∀ seg ∈ s.segments, ∃ seg' ∈ t.segments, seg'.stem = seg.stem ∧ Owed seg seg'
  waits : ∀ stem, Scans s a stem → s.writing ≠ some stem

/-- The steps in which nothing goes wrong that the code does not provide for. -/
structure Regular (s : Recorder) (a : Event) : Prop where
  marked : ∀ o stem seg, Attempts s a o stem seg → stem ∉ s.unmarked
  named : ∀ stem seg, Visits s a stem seg → seg.named = true
  last : a = .beginScan false → ∀ stem, s.writing = some stem → stem ∉ (tsFiles before s).dropLast
  fresh : ∀ stem, a = .openSegment stem → ∀ session, s.active = some session →
    session.finalize = false → stem ∉ session.queue

/-- The books of the process agree with those of the code. -/
structure Inv (s : Recorder) : Prop where
  stems : (s.segments.map Segment.stem).Nodup
  books : ∀ seg ∈ s.segments, seg.tsQuarantine.marker = true ∨ seg.stem ∈ s.unmarked ∨
    s.tries seg.stem = seg.tsQuarantine.failures ∧ seg.tsQuarantine.failures < maxAttempts
  registered : ∀ recovery, s.recovery = some recovery → ∀ stem ∈ recovery.registeredPaths,
    ∃ seg ∈ s.segments, seg.stem = stem ∧ 0 < seg.rows
  waiting : ∀ session, s.active = some session → session.finalize = false →
    ∀ stem, s.writing = some stem → stem ∉ session.queue
  unseen : ∀ stem, stem ∉ s.segments.map Segment.stem → s.tries stem = 0

end Claim

/-- Every file has what it is owed. -/
def KeptAll (first second : List Segment) : Prop :=
  ∀ seg ∈ first, ∃ seg' ∈ second, seg'.stem = seg.stem ∧ Owed seg seg'

theorem Owed.same {seg seg' : Segment} (ts : seg'.ts = none → seg.ts = none)
    (counted : seg'.tsQuarantine.marker = seg.tsQuarantine.marker) : Owed seg seg' where
  registered := by
    intro size present _ gone
    rw [ts gone] at present
    cases present
  spared := fun marker present => ⟨counted.trans marker, fun gone => present (ts gone)⟩

theorem KeptAll.refl (segments : List Segment) : KeptAll segments segments :=
  fun seg member => ⟨seg, member, rfl, Owed.same id rfl⟩

theorem KeptAll.map {first second : List Segment} (kept : KeptAll first second)
    (change : Segment → Segment) (stem : ∀ seg, (change seg).stem = seg.stem)
    (ts : ∀ seg, (change seg).ts = none → seg.ts = none)
    (rows : ∀ seg, (change seg).rows = seg.rows)
    (marker : ∀ seg, (change seg).tsQuarantine.marker = seg.tsQuarantine.marker) :
    KeptAll first (second.map change) := by
  intro seg member
  obtain ⟨seg', inSecond, named, owed⟩ := kept seg member
  refine ⟨change seg', mem_map_of_mem inSecond, (stem seg').trans named, ?_, ?_⟩
  · intro size present above gone
    rw [rows]
    exact owed.registered size present above (ts seg' gone)
  · intro inQuarantine present
    obtain ⟨still, there⟩ := owed.spared inQuarantine present
    exact ⟨(marker seg').trans still, fun gone => there (ts seg' gone)⟩

section Apply

variable {s : Recorder} {stem : Text} {effects : List Effect}

theorem apply_stems : (s.apply stem effects).segments.map Segment.stem =
    s.segments.map Segment.stem :=
  map_updateAt _ _ _ _ _ fun seg => applyAll_stem effects seg

theorem mem_apply (member : seg ∈ (s.apply stem effects).segments) :
    ∃ old ∈ s.segments, (old.stem = stem ∧ seg = applyAll old effects) ∨
      (old.stem ≠ stem ∧ seg = old) := by
  obtain ⟨old, inOld, rfl⟩ := mem_map.mp member
  refine ⟨old, inOld, ?_⟩
  by_cases here : old.stem = stem
  · exact Or.inl ⟨here, if_pos here⟩
  · exact Or.inr ⟨here, if_neg here⟩

theorem apply_row (other : Text) (row : ∃ seg ∈ s.segments, seg.stem = other ∧ 0 < seg.rows) :
    ∃ seg ∈ (s.apply stem effects).segments, seg.stem = other ∧ 0 < seg.rows := by
  obtain ⟨seg, member, rfl, above⟩ := row
  refine ⟨_, mem_map_of_mem member, ?_, ?_⟩
  · split
    · exact applyAll_stem effects seg
    · rfl
  · split
    · exact above.trans_le (applyAll_rows effects seg)
    · exact above

theorem apply_kept (owed : ∀ seg ∈ s.segments, seg.stem = stem → Owed seg (applyAll seg effects)) :
    KeptAll s.segments (s.apply stem effects).segments := by
  intro seg member
  refine ⟨_, mem_map_of_mem member, ?_, ?_⟩
  · split
    · exact applyAll_stem effects seg
    · rfl
  · split
    · rename_i here
      exact owed seg member here
    · exact Owed.same id rfl

end Apply

variable (before : Text → Text → Prop)

section Steps

variable {maxAttempts : Nat} {s : Recorder}

theorem restart_inv (distinct : (s.segments.map Segment.stem).Nodup) (positive : 0 < maxAttempts) :
    Inv maxAttempts s.restart := by
  refine ⟨?_, ?_, nofun, nofun, fun _ _ => rfl⟩
  · have same : s.restart.segments.map Segment.stem = s.segments.map Segment.stem := by
      show (s.segments.map Segment.restarted).map Segment.stem = _
      rw [map_map]
      rfl
    rw [same]
    exact distinct
  · intro seg member
    obtain ⟨old, -, rfl⟩ := mem_map.mp member
    exact Or.inr (Or.inr ⟨rfl, positive⟩)

theorem restart_kept {first : List Segment} (kept : KeptAll first s.segments) :
    KeptAll first s.restart.segments :=
  kept.map Segment.restarted (fun _ => rfl) (fun _ gone => gone) (fun _ => rfl) fun _ => rfl

theorem apply_inv_stems (inv : Inv maxAttempts s) (stem : Text) (effects : List Effect) :
    ((s.apply stem effects).segments.map Segment.stem).Nodup := by
  rw [apply_stems]
  exact inv.stems

variable {seg : Segment}

theorem segment_mem {stem : Text} (found : s.segment stem = some seg) :
    seg ∈ s.segments ∧ seg.stem = stem :=
  lookup_mem found

theorem segment_one (inv : Inv maxAttempts s) {stem : Text} (found : s.segment stem = some seg)
    (other : Segment) (member : other ∈ s.segments) (same : other.stem = stem) : other = seg := by
  obtain ⟨inSegments, named⟩ := segment_mem found
  exact eq_of_key inv.stems member inSegments (same.trans named.symm)

/-- The books after an attempt, or after a file that there is nothing to attempt on. -/
def Books (maxAttempts : Nat) (tries : Text → Nat) (unmarked : List Text) (seg : Segment) : Prop :=
  seg.tsQuarantine.marker = true ∨ seg.stem ∈ unmarked ∨
    tries seg.stem = seg.tsQuarantine.failures ∧ seg.tsQuarantine.failures < maxAttempts

theorem tally_frame (stem : Text) (result : Result) (unmarked : Bool) :
    (s.tally stem result unmarked).segments = s.segments ∧
    (s.tally stem result unmarked).recovery = s.recovery ∧
    (s.tally stem result unmarked).active = s.active ∧
    (s.tally stem result unmarked).writing = s.writing := by
  cases result <;> exact ⟨rfl, rfl, rfl, rfl⟩

theorem tally_other (stem : Text) (result : Result) (unmarked : Bool) (seg : Segment)
    (other : seg.stem ≠ stem) (books : Books maxAttempts s.tries s.unmarked seg) :
    Books maxAttempts (s.tally stem result unmarked).tries
      (s.tally stem result unmarked).unmarked seg := by
  rcases books with marked | listed | counted
  · exact Or.inl marked
  · refine Or.inr (Or.inl ?_)
    cases result with
    | failed =>
      show seg.stem ∈ if unmarked = true then stem :: s.unmarked else s.unmarked
      split
      · exact mem_cons_of_mem _ listed
      · exact listed
    | done | discarded => exact mem_filter.mpr ⟨listed, decide_eq_true other⟩
  · refine Or.inr (Or.inr ⟨?_, counted.2⟩)
    rw [← counted.1]
    cases result with
    | failed | done | discarded => exact if_neg other

theorem tally_self (o : Oracle) (seg : Segment) (positive : 0 < maxAttempts)
    (counted : (attemptTs maxAttempts o seg).2 = .failed → s.tries seg.stem =
      seg.tsQuarantine.failures ∧ seg.tsQuarantine.failures < maxAttempts) :
    Books maxAttempts
      (s.tally seg.stem (attemptTs maxAttempts o seg).2 (givenUpUnmarked maxAttempts o seg)).tries
      (s.tally seg.stem (attemptTs maxAttempts o seg).2
        (givenUpUnmarked maxAttempts o seg)).unmarked
      (applyAll seg (attemptTs maxAttempts o seg).1) := by
  have quarantine := attemptTs_quarantine maxAttempts o seg
  have stem := applyAll_stem (attemptTs maxAttempts o seg).1 seg
  unfold Books
  rw [quarantine, stem]
  generalize (attemptTs maxAttempts o seg).2 = result at counted
  cases result with
  | done | discarded => exact Or.inr (Or.inr ⟨if_pos rfl, positive⟩)
  | failed =>
    obtain ⟨tries, below⟩ := counted rfl
    by_cases more : seg.tsQuarantine.failures + 1 < maxAttempts
    · have again : registerSegmentRemuxFailure maxAttempts o.marks seg.tsQuarantine =
          ({ seg.tsQuarantine with failures := seg.tsQuarantine.failures + 1 }, false) :=
        if_pos more
      rw [again]
      refine Or.inr (Or.inr ⟨?_, more⟩)
      rw [← tries]
      exact if_pos rfl
    · have spent : registerSegmentRemuxFailure maxAttempts o.marks seg.tsQuarantine =
          (⟨0, seg.tsQuarantine.marker || o.marks⟩, true) := if_neg more
      rw [spent]
      cases marked : seg.tsQuarantine.marker || o.marks with
      | true => exact Or.inl rfl
      | false =>
        refine Or.inr (Or.inl ?_)
        have lost : givenUpUnmarked maxAttempts o seg = true := by
          rw [givenUpUnmarked, spent, marked]
          rfl
        rw [lost]
        exact mem_cons_self

theorem scanSegment_attempts (o : Oracle) (seg : Segment) (called : attempts seg = true)
    (present : seg.ts ≠ none) :
    scanSegment maxAttempts o seg = (attemptTs maxAttempts o seg).1 := by
  simp only [attempts, Bool.and_eq_true, Bool.not_eq_true', decide_eq_true_eq] at called
  rw [scanSegment, called.1, if_neg (by simp)]
  cases ts : seg.ts with
  | none => exact absurd ts present
  | some size =>
    dsimp only
    rw [if_neg fun none => called.2 (by rw [ts, none])]

theorem scanSegment_uncounted (o : Oracle) (seg : Segment) (called : attempts seg = false) :
    (applyAll seg (scanSegment maxAttempts o seg)).tsQuarantine = seg.tsQuarantine := by
  apply applyAll_tsQuarantine
  intro effect member
  unfold scanSegment at member
  split at member
  · cases member
  · rename_i unmarked
    split at member
    · cases member
    · rename_i size ts
      split at member
      · exact removal_uncounted o effect member
      · rename_i solid
        refine absurd called ?_
        simp [attempts, unmarked, ts, solid]

theorem visited_self (o : Oracle) (seg : Segment) (effects : List Effect) (attempted : Bool)
    (positive : 0 < maxAttempts) (books : Books maxAttempts s.tries s.unmarked seg)
    (free : attempted = true → effects = (attemptTs maxAttempts o seg).1 ∧
      ((attemptTs maxAttempts o seg).2 = .failed → seg.tsQuarantine.marker = false ∧
      seg.stem ∉ s.unmarked))
    (idle : attempted = false → (applyAll seg effects).tsQuarantine = seg.tsQuarantine) :
    Books maxAttempts (s.visited maxAttempts o seg.stem seg effects attempted).tries
      (s.visited maxAttempts o seg.stem seg effects attempted).unmarked (applyAll seg effects) := by
  cases attempted with
  | true =>
    obtain ⟨same, unspent⟩ := free rfl
    rw [same]
    apply tally_self (s := s.apply seg.stem (attemptTs maxAttempts o seg).1) o seg positive
    intro failed
    obtain ⟨unmarked, unlisted⟩ := unspent failed
    rcases books with marked | listed | counted
    · rw [unmarked] at marked
      cases marked
    · exact absurd listed unlisted
    · exact counted
  | false =>
    rw [Books, idle rfl, applyAll_stem]
    exact books

theorem visited_other (o : Oracle) (stem : Text) (seg : Segment) (effects : List Effect)
    (attempted : Bool) (other : Segment) (apart : other.stem ≠ stem)
    (books : Books maxAttempts s.tries s.unmarked other) :
    Books maxAttempts (s.visited maxAttempts o stem seg effects attempted).tries
      (s.visited maxAttempts o stem seg effects attempted).unmarked other := by
  cases attempted with
  | true => exact tally_other (s := s.apply stem effects) stem _ _ other apart books
  | false => exact books

theorem visited_frame (o : Oracle) (stem : Text) (seg : Segment) (effects : List Effect)
    (attempted : Bool) :
    (s.visited maxAttempts o stem seg effects attempted).segments =
      (s.apply stem effects).segments ∧
    (s.visited maxAttempts o stem seg effects attempted).recovery = s.recovery ∧
    (s.visited maxAttempts o stem seg effects attempted).active = s.active ∧
    (s.visited maxAttempts o stem seg effects attempted).writing = s.writing := by
  cases attempted with
  | true => exact tally_frame stem _ _
  | false => exact ⟨rfl, rfl, rfl, rfl⟩

theorem visited_unseen (inv : Inv maxAttempts s) (o : Oracle) (stem : Text) (seg : Segment)
    (found : s.segment stem = some seg) (effects : List Effect) (attempted : Bool) (other : Text)
    (unseen : other ∉ (s.visited maxAttempts o stem seg effects attempted).segments.map Segment.stem) :
    (s.visited maxAttempts o stem seg effects attempted).tries other = 0 := by
  obtain ⟨inSegments, rfl⟩ := segment_mem found
  rw [(visited_frame o _ seg effects attempted).1, apply_stems] at unseen
  have zero := inv.unseen other unseen
  have apart : other ≠ seg.stem := by
    rintro rfl
    exact unseen (mem_map_of_mem inSegments)
  cases attempted with
  | false => exact zero
  | true =>
    show (Recorder.tally _ _ (attemptTs maxAttempts o seg).2 _).tries other = 0
    cases (attemptTs maxAttempts o seg).2 with
    | failed | done | discarded => exact (if_neg apart).trans zero

theorem applyAll_marker (seg : Segment) (marker : seg.tsQuarantine.marker = true) :
    (applyAll seg effects).tsQuarantine.marker = true := by
  induction effects generalizing seg with
  | nil => exact marker
  | cons effect rest ih =>
    apply ih
    cases effect with
    | writeMp4 video | removeMp4 | saveRow | removeTs => exact marker
    | forget kind => cases kind <;> exact marker
    | fail kind maxAttempts marks =>
      cases kind with
      | mp4 => exact marker
      | ts =>
        show (registerSegmentRemuxFailure maxAttempts marks seg.tsQuarantine).1.marker = true
        unfold registerSegmentRemuxFailure
        dsimp only
        split
        · exact marker
        · simp [marker]

theorem applyAll_ts (seg : Segment) (stays : ∀ effect ∈ effects, effect ≠ .removeTs) :
    (applyAll seg effects).ts = seg.ts := by
  induction effects generalizing seg with
  | nil => rfl
  | cons effect rest ih =>
    refine (ih _ fun other member => stays other (mem_cons_of_mem _ member)).trans ?_
    have here := stays effect mem_cons_self
    cases effect with
    | writeMp4 video | removeMp4 | saveRow => rfl
    | removeTs => exact absurd rfl here
    | forget kind | fail kind maxAttempts marks => cases kind <;> rfl

/-- What is done to a file of a visit: a row comes before a removal, and nothing is removed in
quarantine. -/
structure Careful (seg : Segment) (effects : List Effect) : Prop where
  kept : Kept seg → seg.ts ≠ some 0 → Throughout Kept seg effects
  spares : seg.tsQuarantine.marker = true → ∀ effect ∈ effects, effect ≠ .removeTs

theorem Careful.owed {effects : List Effect} (careful : Careful seg effects) (k : Nat) :
    Owed seg (applyAll seg (effects.take k)) where
  registered := by
    intro size present above
    have solid : seg.ts ≠ some 0 := by
      intro none
      rw [none] at present
      cases present
      omega
    apply (careful.kept _ solid).take k
    intro gone
    rw [gone] at present
    cases present
  spared := by
    intro marker present
    refine ⟨applyAll_marker _ seg marker, ?_⟩
    rw [applyAll_ts _ seg fun effect member =>
      careful.spares marker effect (mem_of_mem_take member)]
    exact present

theorem found_kept (inv : Inv maxAttempts s) (stem : Text) (seg : Segment)
    (found : s.segment stem = some seg) (effects : List Effect) (careful : Careful seg effects)
    (k : Nat) : KeptAll s.segments (s.apply stem (effects.take k)).segments := by
  apply apply_kept
  intro other member same
  rw [segment_one inv found other member same]
  exact careful.owed k

theorem found_kept_whole (inv : Inv maxAttempts s) (stem : Text) (seg : Segment)
    (found : s.segment stem = some seg) (effects : List Effect) (careful : Careful seg effects) :
    KeptAll s.segments (s.apply stem effects).segments := by
  have whole := found_kept inv stem seg found effects careful effects.length
  rwa [take_length] at whole

theorem scanSegment_careful (o : Oracle) (seg : Segment) (named : seg.named = true) :
    Careful seg (scanSegment maxAttempts o seg) where
  kept := fun kept solid => scanSegment_kept maxAttempts o seg kept solid named
  spares := by
    intro marker effect member
    rw [scanSegment, if_pos marker] at member
    cases member

theorem recoverFile_careful (o : Oracle) (registered : Bool) (seg : Segment)
    (named : seg.named = true) (known : registered = true → 0 < seg.rows) (kind : Kind) :
    Careful seg (recoverFile maxAttempts o registered seg kind).1 where
  kept := fun kept solid =>
    recoverFile_kept maxAttempts o registered seg kept solid named known kind
  spares := by
    intro marker effect member
    cases kind with
    | ts =>
      rw [recoverFile, recoverTs, if_pos marker] at member
      cases member
    | mp4 =>
      rcases mem_recoverMp4 member with rfl | rfl | rfl
      all_goals simp

theorem visited_inv (positive : 0 < maxAttempts) (inv : Inv maxAttempts s) (o : Oracle)
    (stem : Text) (seg : Segment) (found : s.segment stem = some seg) (effects : List Effect)
    (attempted : Bool) (careful : Careful seg effects)
    (free : attempted = true → effects = (attemptTs maxAttempts o seg).1 ∧
      ((attemptTs maxAttempts o seg).2 = .failed → seg.tsQuarantine.marker = false ∧
      stem ∉ s.unmarked))
    (idle : attempted = false → (applyAll seg effects).tsQuarantine = seg.tsQuarantine)
    (active : Option Session) (recovery : Option Recovery)
    (registered : ∀ later, recovery = some later → ∀ file ∈ later.registeredPaths,
      ∃ seg ∈ (s.apply stem effects).segments, seg.stem = file ∧ 0 < seg.rows)
    (waiting : ∀ session, active = some session → session.finalize = false →
      ∀ file, s.writing = some file → file ∉ session.queue) :
    Inv maxAttempts { s.visited maxAttempts o stem seg effects attempted with
      active := active, recovery := recovery } ∧
      KeptAll s.segments (s.visited maxAttempts o stem seg effects attempted).segments := by
  obtain ⟨segments, -, -, writing⟩ := @visited_frame maxAttempts s o stem seg effects attempted
  refine ⟨⟨?_, ?_, ?_, ?_, visited_unseen inv o stem seg found effects attempted⟩, ?_⟩
  · rw [segments]
    exact apply_inv_stems inv _ _
  · rw [segments]
    intro other member
    obtain ⟨inSegments, rfl⟩ := segment_mem found
    obtain ⟨old, inOld, ⟨same, rfl⟩ | ⟨apart, rfl⟩⟩ := mem_apply other member
    · rw [segment_one inv found old inOld same]
      exact visited_self o seg effects attempted positive (inv.books seg inSegments) free idle
    · exact visited_other o seg.stem seg effects attempted other apart (inv.books other inOld)
  · rw [segments]
    exact registered
  · rw [writing]
    exact waiting
  · rw [segments]
    exact found_kept_whole inv stem seg found effects careful

theorem visitFile_inv (positive : 0 < maxAttempts) (inv : Inv maxAttempts s) (o : Oracle)
    (crash : Option Nat) (session : Session) (active : s.active = some session) (stem : Text)
    (rest : List Text) (next : session.queue = stem :: rest)
    (marked : ∀ o' stem seg, Attempts s (.visitFile o crash) o' stem seg → stem ∉ s.unmarked)
    (named : ∀ stem seg, Visits s (.visitFile o crash) stem seg → seg.named = true) :
    Inv maxAttempts (visitFile maxAttempts o crash s session stem rest) ∧
      KeptAll s.segments (visitFile maxAttempts o crash s session stem rest).segments := by
  have waiting : ∀ (queue known : List Text), (∀ file ∈ queue, file ∈ session.queue) →
      ∀ other, some (Session.mk known queue session.finalize) = some other →
        other.finalize = false → ∀ file, s.writing = some file → file ∉ other.queue := by
    rintro queue known fewer other ⟨⟩ periodic file writing listed
    exact inv.waiting session active periodic file writing (fewer file listed)
  have later : ∀ file ∈ rest, file ∈ session.queue := by
    intro file member
    rw [next]
    exact mem_cons_of_mem _ member
  unfold visitFile
  split
  · exact ⟨⟨inv.stems, inv.books, inv.registered, waiting rest _ later, inv.unseen⟩, KeptAll.refl _⟩
  · rename_i unknown
    split
    · exact ⟨⟨inv.stems, inv.books, inv.registered, waiting [] _ nofun, inv.unseen⟩, KeptAll.refl _⟩
    · rename_i seg found
      split
      · exact ⟨⟨inv.stems, inv.books, inv.registered, waiting [] _ nofun, inv.unseen⟩,
          KeptAll.refl _⟩
      · rename_i there
        have kept : Careful seg (scanSegment maxAttempts o seg) := scanSegment_careful o seg
          (named stem seg (.scan o crash session stem rest seg active next found))
        have free : attempts seg = true →
            scanSegment maxAttempts o seg = (attemptTs maxAttempts o seg).1 ∧
              ((attemptTs maxAttempts o seg).2 = .failed →
                seg.tsQuarantine.marker = false ∧ stem ∉ s.unmarked) := by
          intro called
          have unmarked : seg.tsQuarantine.marker = false := by
            simp only [attempts, Bool.and_eq_true, Bool.not_eq_true'] at called
            exact called.1
          have present : seg.ts ≠ none := fun gone => there ⟨gone, unmarked⟩
          refine ⟨scanSegment_attempts o seg called present, ?_⟩
          intro _
          exact ⟨unmarked, marked o stem seg
            (.scan o crash session stem rest seg active next unknown found present called)⟩
        cases crash with
        | some k =>
          exact ⟨restart_inv (apply_inv_stems inv _ _) positive,
            restart_kept (found_kept inv stem seg found _ kept k)⟩
        | none =>
          exact visited_inv positive inv o stem seg found _ (attempts seg) kept free
            (scanSegment_uncounted o seg) _ _ (fun later running file registered => by
              rw [(visited_frame o stem seg _ _).2.1] at running
              exact apply_row file (inv.registered later running file registered))
            (waiting rest _ later)

theorem attemptTs_done (o : Oracle) (seg : Segment) (named : seg.named = true)
    (done : (attemptTs maxAttempts o seg).2 = .done) :
    0 < (applyAll seg (attemptTs maxAttempts o seg).1).rows := by
  have row : 0 < (applyAll seg (remuxAndRegisterTsSegment o seg).1).rows := by
    have remuxed : (remuxAndRegisterTsSegment o seg).2 = .done := done
    rcases remuxAndRegister_cases o seg with ⟨-, same⟩ | same | ⟨rows, saved, same⟩
    · rw [same] at remuxed
      cases remuxed
    · rw [same] at remuxed
      cases remuxed
    · obtain rfl : rows = [.saveRow] := saved.resolve_right fun other => by simp [named] at other
      rw [same, applyAll_append, applyAll_append]
      exact (save_row _).trans_le (applyAll_rows _ _)
  rw [attemptTs_eq, applyAll_append]
  exact row.trans_le (applyAll_rows _ _)

theorem recoverFile_registered (o : Oracle) (registered : Bool) (seg : Segment) (kind : Kind)
    (named : seg.named = true) (known : registered = true → 0 < seg.rows)
    (told : (recoverFile maxAttempts o registered seg kind).2 = true) :
    0 < (applyAll seg (recoverFile maxAttempts o registered seg kind).1).rows := by
  have stays : ∀ effects, 0 < seg.rows → 0 < (applyAll seg effects).rows := fun effects row =>
    row.trans_le (applyAll_rows effects seg)
  cases kind with
  | ts =>
    rw [recoverFile, recoverTs] at told ⊢
    split at told
    · exact stays _ (known told)
    · rename_i unmarked
      rw [if_neg unmarked]
      split at told
      · rename_i twin
        exact stays _ (known twin)
      · rename_i alone
        rw [if_neg alone]
        exact attemptTs_done o seg named (of_decide_eq_true told)
  | mp4 =>
    rw [recoverFile, recoverMp4] at told ⊢
    split at told
    · exact stays _ (known told)
    · rename_i unmarked
      rw [if_neg unmarked]
      cases video : seg.mp4 with
      | none =>
        rw [video] at told
        exact stays _ (known told)
      | some video' =>
        rw [video] at told
        dsimp only at told ⊢
        by_cases reads : o.reads video' = true
        · rw [if_pos reads] at told ⊢
          rcases registerSegment_named o seg named with saved | refused
          · rw [saved, if_pos rfl, applyAll_append]
            exact (save_row seg).trans_le (applyAll_rows _ _)
          · rw [refused] at told
            exact stays _ (known told)
        · rw [if_neg reads] at told ⊢
          exact stays _ (known told)

/-- Where the recovery does not go through the remux, the books stay as they are. -/
theorem recoverFile_uncounted (o : Oracle) (recovery : Recovery) (stem : Text) (seg : Segment)
    (kind : Kind) (idle : recoveryAttempts recovery stem kind seg = false) :
    (applyAll seg (recoverFile maxAttempts o (stem ∈ recovery.registeredPaths) seg
      kind).1).tsQuarantine = seg.tsQuarantine := by
  apply applyAll_tsQuarantine
  intro effect member
  cases kind with
  | ts =>
    rw [recoverFile, recoverTs] at member
    split at member
    · cases member
    · rename_i unmarked
      split at member
      · exact removal_uncounted o effect member
      · rename_i alone
        have absent : stem ∉ recovery.registeredPaths :=
          fun listed => alone (decide_eq_true listed)
        refine absurd idle ?_
        simp [recoveryAttempts, unmarked, absent]
  | mp4 =>
    rcases mem_recoverMp4 member with rfl | rfl | rfl
    all_goals rfl

theorem recoveryAttempts_parts (recovery : Recovery) (stem : Text) (kind : Kind) (seg : Segment)
    (called : recoveryAttempts recovery stem kind seg = true) :
    kind = .ts ∧ seg.tsQuarantine.marker = false ∧ stem ∉ recovery.registeredPaths := by
  simpa [recoveryAttempts, and_assoc] using called

theorem visitCandidate_inv (positive : 0 < maxAttempts) (inv : Inv maxAttempts s) (o : Oracle)
    (crash : Option Nat) (recovery : Recovery) (running : s.recovery = some recovery) (stem : Text)
    (kind : Kind) (rest : List (Text × Kind)) (next : recovery.candidates = (stem, kind) :: rest)
    (marked : ∀ o' stem seg, Attempts s (.visitCandidate o crash) o' stem seg → stem ∉ s.unmarked)
    (named : ∀ stem seg, Visits s (.visitCandidate o crash) stem seg → seg.named = true) :
    Inv maxAttempts (visitCandidate maxAttempts o crash s recovery stem kind rest) ∧
      KeptAll s.segments
        (visitCandidate maxAttempts o crash s recovery stem kind rest).segments := by
  unfold visitCandidate
  split
  · rename_i seg inactive found
    obtain ⟨inSegments, sameStem⟩ := segment_mem found
    have namedFile := named stem seg
      (.recovery o crash recovery stem kind rest seg running next found)
    have known : decide (stem ∈ recovery.registeredPaths) = true → 0 < seg.rows := by
      intro listed
      obtain ⟨other, member, same, row⟩ :=
        inv.registered recovery running stem (of_decide_eq_true listed)
      rwa [segment_one inv found other member same] at row
    have kept : Careful seg (recoverFile maxAttempts o (stem ∈ recovery.registeredPaths) seg
        kind).1 := recoverFile_careful o _ seg namedFile known kind
    have free : recoveryAttempts recovery stem kind seg = true →
        (recoverFile maxAttempts o (stem ∈ recovery.registeredPaths) seg kind).1 =
          (attemptTs maxAttempts o seg).1 ∧ ((attemptTs maxAttempts o seg).2 = .failed →
            seg.tsQuarantine.marker = false ∧ stem ∉ s.unmarked) := by
      intro called
      obtain ⟨rfl, unmarked, absent⟩ := recoveryAttempts_parts recovery stem kind seg called
      refine ⟨?_, ?_⟩
      · rw [recoverFile, recoverTs, unmarked, if_neg (by simp), decide_eq_false absent,
          if_neg (by simp)]
      · intro failed
        refine ⟨unmarked, marked o stem seg
          (.recovery o crash recovery stem rest seg inactive running next found called ?_)⟩
        intro none
        rw [attemptTs_eq, remuxAndRegisterTsSegment, if_pos none] at failed
        cases failed
    cases crash with
    | some k =>
      exact ⟨restart_inv (apply_inv_stems inv _ _) positive,
        restart_kept (found_kept inv stem seg found _ kept k)⟩
    | none =>
      apply visited_inv positive inv o stem seg found _ (recoveryAttempts recovery stem kind seg)
        kept free (recoverFile_uncounted o recovery stem seg kind)
      · rintro later ⟨⟩ file listed
        have before : file ∈ recovery.registeredPaths → ∃ seg' ∈
            (s.apply stem (recoverFile maxAttempts o (stem ∈ recovery.registeredPaths) seg
              kind).1).segments, seg'.stem = file ∧ 0 < seg'.rows := fun member =>
          apply_row file (inv.registered recovery running file member)
        split at listed
        · rename_i told
          rcases mem_cons.mp listed with rfl | member
          · have row := recoverFile_registered o _ seg kind namedFile known told
            refine ⟨_, mem_map_of_mem inSegments, ?_⟩
            rw [if_pos sameStem]
            exact ⟨(applyAll_stem _ seg).trans sameStem, row⟩
          · exact before member
        · exact before listed
      · rw [(visited_frame o stem seg _ _).2.2.1, inactive]
        simp
  · refine ⟨⟨inv.stems, inv.books, ?_, inv.waiting, inv.unseen⟩, KeptAll.refl _⟩
    rintro later ⟨⟩ file listed
    exact inv.registered recovery running file listed

theorem touch_inv (inv : Inv maxAttempts s) (stem : Text) (change : Segment → Segment)
    (stems : ∀ seg, (change seg).stem = seg.stem) (rows : ∀ seg, (change seg).rows = seg.rows)
    (counted : ∀ seg, (change seg).tsQuarantine = seg.tsQuarantine)
    (ts : ∀ seg, (change seg).ts = none → seg.ts = none) (writing : Option Text)
    (waiting : ∀ session, s.active = some session → session.finalize = false → ∀ stem,
      writing = some stem → stem ∉ session.queue) :
    Inv maxAttempts
        { s with segments := updateAt Segment.stem s.segments stem change, writing := writing } ∧
      KeptAll s.segments (updateAt Segment.stem s.segments stem change) := by
  have keys : (updateAt Segment.stem s.segments stem change).map Segment.stem =
      s.segments.map Segment.stem := map_updateAt _ _ _ _ _ stems
  refine ⟨⟨?_, ?_, ?_, waiting, ?_⟩, ?_⟩
  · rw [keys]
    exact inv.stems
  · intro seg member
    obtain ⟨old, inOld, rfl⟩ := mem_map.mp member
    have books := inv.books old inOld
    split
    · rw [counted, stems]
      exact books
    · exact books
  · intro recovery running file listed
    obtain ⟨seg, member, named, row⟩ := inv.registered recovery running file listed
    refine ⟨_, mem_map_of_mem member, ?_⟩
    split
    · rw [stems, rows]
      exact ⟨named, row⟩
    · exact ⟨named, row⟩
  · intro file unseen
    apply inv.unseen file
    rw [← keys]
    exact unseen
  · apply (KeptAll.refl s.segments).map
    · intro seg
      split
      · exact stems seg
      · rfl
    · intro seg gone
      split at gone
      · exact ts seg gone
      · exact gone
    · intro seg
      split
      · exact rows seg
      · rfl
    · intro seg
      split
      · rw [counted]
      · rfl

theorem openSegment_inv (inv : Inv maxAttempts s) (positive : 0 < maxAttempts) (stem : Text)
    (fresh : ∀ session, s.active = some session → session.finalize = false → stem ∉ session.queue) :
    Inv maxAttempts (openSegment s stem) ∧ KeptAll s.segments (openSegment s stem).segments := by
  have waiting : ∀ session, s.active = some session → session.finalize = false →
      ∀ file, some stem = some file → file ∉ session.queue := by
    rintro session active periodic file ⟨⟩
    exact fresh session active periodic
  unfold openSegment
  cases found : s.segment stem with
  | none =>
    have new : stem ∉ s.segments.map Segment.stem := by
      intro member
      obtain ⟨seg, inSegments, same⟩ := mem_map.mp member
      exact lookup_eq_none found seg inSegments same
    refine ⟨⟨?_, ?_, ?_, waiting, ?_⟩, ?_⟩
    · rw [map_append]
      apply inv.stems.append (nodup_singleton stem)
      simpa using new
    · intro seg member
      rcases mem_append.mp member with old | opened
      · exact inv.books seg old
      · rw [mem_singleton.mp opened]
        exact Or.inr (Or.inr ⟨inv.unseen stem new, positive⟩)
    · intro recovery running file listed
      obtain ⟨seg, member, row⟩ := inv.registered recovery running file listed
      exact ⟨seg, mem_append_left _ member, row⟩
    · intro file unseen
      apply inv.unseen file
      intro member
      apply unseen
      rw [map_append]
      exact mem_append_left _ member
    · intro seg member
      obtain ⟨seg', inSegments, kept⟩ := KeptAll.refl s.segments seg member
      exact ⟨seg', mem_append_left _ inSegments, kept⟩
  | some old =>
    exact touch_inv inv stem (fun seg => { seg with ts := some 0 }) (fun _ => rfl) (fun _ => rfl)
      (fun _ => rfl) (fun _ => nofun) (some stem) waiting

/-- Who is attempted has neither a marker nor been given up without one. -/
theorem attempts_below (inv : Inv maxAttempts s) (a : Event) (o : Oracle) (stem : Text)
    (seg : Segment) (attempt : Attempts s a o stem seg) (marked : stem ∉ s.unmarked) :
    s.tries stem < maxAttempts := by
  have present : s.segment stem = some seg ∧ seg.tsQuarantine.marker = false := by
    cases attempt with
    | scan o crash session stem rest seg active next unknown found present called =>
      simp only [attempts, Bool.and_eq_true, Bool.not_eq_true'] at called
      exact ⟨found, called.1⟩
    | recovery o crash recovery stem rest seg inactive running next found called solid =>
      exact ⟨found, (recoveryAttempts_parts recovery stem .ts seg called).2.1⟩
  obtain ⟨inSegments, rfl⟩ := segment_mem present.1
  rcases inv.books seg inSegments with inQuarantine | listed | counted
  · rw [present.2] at inQuarantine
    cases inQuarantine
  · exact absurd listed marked
  · omega

/-- Where nothing irregular happens, a step keeps the books and the files. -/
theorem step_inv [DecidableRel before] (positive : 0 < maxAttempts) {a : Event} {t : Recorder}
    (inv : Inv maxAttempts s) (regular : Regular before s a)
    (taken : step before maxAttempts s a = some t) :
    Inv maxAttempts t ∧ KeptAll s.segments t.segments := by
  cases a with
  | start =>
    rw [step] at taken
    split at taken
    · cases taken
    · cases taken
      exact ⟨⟨inv.stems, inv.books, inv.registered, fun _ _ _ => nofun, inv.unseen⟩, KeptAll.refl _⟩
  | openSegment stem =>
    rw [step] at taken
    split at taken
    · cases taken
      exact openSegment_inv inv positive stem (regular.fresh stem rfl)
    · cases taken
  | grow size =>
    rw [step] at taken
    split at taken
    · cases taken
    · rename_i stem writing
      cases taken
      exact touch_inv inv stem (written size) (fun _ => rfl) (fun _ => rfl) (fun _ => rfl)
        (fun _ gone => Option.map_eq_none_iff.mp gone) s.writing inv.waiting
  | close =>
    cases taken
    exact ⟨⟨inv.stems, inv.books, inv.registered, fun _ _ _ => nofun, inv.unseen⟩, KeptAll.refl _⟩
  | beginScan finalize =>
    rw [step] at taken
    split at taken
    · rename_i session active
      split at taken
      · cases taken
        refine ⟨⟨inv.stems, inv.books, inv.registered, ?_, inv.unseen⟩, KeptAll.refl _⟩
        rintro later ⟨⟩ periodic stem writing
        have final : finalize = false := periodic
        rw [final]
        exact regular.last (by rw [final]) stem writing
      · cases taken
    · cases taken
  | visitFile o crash =>
    rw [step] at taken
    split at taken
    · cases taken
    · rename_i session active
      split at taken
      · cases taken
      · rename_i stem rest next
        cases taken
        exact visitFile_inv positive inv o crash session active stem rest next regular.marked
          regular.named
  | endSession =>
    rw [step] at taken
    split at taken
    · split at taken
      · cases taken
        exact ⟨⟨inv.stems, inv.books, inv.registered, nofun, inv.unseen⟩, KeptAll.refl _⟩
      · cases taken
    · cases taken
  | beginRecovery candidates =>
    rw [step] at taken
    split at taken
    · cases taken
      refine ⟨⟨inv.stems, inv.books, ?_, inv.waiting, inv.unseen⟩, KeptAll.refl _⟩
      rintro later ⟨⟩ stem listed
      obtain ⟨seg, member, named⟩ := mem_map.mp listed
      obtain ⟨inSegments, row⟩ := mem_filter.mp member
      exact ⟨seg, inSegments, named, of_decide_eq_true row⟩
    · cases taken
  | visitCandidate o crash =>
    rw [step] at taken
    split at taken
    · cases taken
    · rename_i recovery running
      split at taken
      · cases taken
      · rename_i stem kind rest next
        cases taken
        exact visitCandidate_inv positive inv o crash recovery running stem kind rest next
          regular.marked regular.named
  | restart =>
    cases taken
    exact ⟨restart_inv inv.stems positive, restart_kept (KeptAll.refl _)⟩

theorem attemptTs_stays (o : Oracle) (seg : Segment)
    (failed : (attemptTs maxAttempts o seg).2 = .failed) :
    ∀ effect ∈ (attemptTs maxAttempts o seg).1, effect ≠ .removeTs := by
  have remuxed : (remuxAndRegisterTsSegment o seg).2 = .failed := failed
  rintro effect member rfl
  rw [attemptTs_eq, if_pos remuxed] at member
  rcases remuxAndRegister_cases o seg with ⟨-, same⟩ | same | ⟨rows, saved, same⟩
  · rw [same] at remuxed
    cases remuxed
  · rw [same] at member
    rcases mem_append.mp member with first | last
    · cases remuxTs_writes o seg _ first
    · cases mem_singleton.mp last
  · rw [same] at remuxed
    cases remuxed

theorem attempts_segments [DecidableRel before] {a : Event} {t : Recorder} {o : Oracle}
    {stem : Text} (attempt : Attempts s a o stem seg)
    (taken : step before maxAttempts s a = some t) :
    s.segment stem = some seg ∧ ∃ k, ∃ change : Segment → Segment,
      (∀ seg, (change seg).stem = seg.stem ∧ (change seg).ts = seg.ts) ∧
      t.segments = (s.apply stem ((attemptTs maxAttempts o seg).1.take k)).segments.map change := by
  have whole : ∀ effects : List Effect, (s.apply stem effects).segments =
      (s.apply stem (effects.take effects.length)).segments.map id := by
    intro effects
    rw [take_length, map_id]
  cases attempt with
  | scan _ crash session _ rest _ active next unknown found present called =>
    refine ⟨found, ?_⟩
    rw [← @scanSegment_attempts maxAttempts o seg called present]
    simp only [step, active, next, visitFile, if_neg unknown, found, present, false_and,
      if_false, Option.some.injEq] at taken
    cases crash with
    | some k => exact ⟨k, Segment.restarted, fun _ => ⟨rfl, rfl⟩, by rw [← taken]; rfl⟩
    | none =>
      refine ⟨(scanSegment maxAttempts o seg).length, id, fun _ => ⟨rfl, rfl⟩, ?_⟩
      rw [← whole, ← taken]
      exact (visited_frame o stem seg _ _).1
  | recovery _ crash recovery _ rest _ inactive running next found called solid =>
    refine ⟨found, ?_⟩
    obtain ⟨-, unmarked, absent⟩ := recoveryAttempts_parts recovery stem .ts seg called
    have visit : (recoverFile maxAttempts o (stem ∈ recovery.registeredPaths) seg .ts).1 =
        (attemptTs maxAttempts o seg).1 := by
      rw [recoverFile, recoverTs, unmarked, if_neg (by simp), decide_eq_false absent, if_neg (by simp)]
    rw [← visit]
    simp only [step, running, next, visitCandidate, inactive, found, Option.some.injEq] at taken
    cases crash with
    | some k => exact ⟨k, Segment.restarted, fun _ => ⟨rfl, rfl⟩, by rw [← taken]; rfl⟩
    | none =>
      refine ⟨(recoverFile maxAttempts o (stem ∈ recovery.registeredPaths) seg .ts).1.length,
        id, fun _ => ⟨rfl, rfl⟩, ?_⟩
      rw [← whole, ← taken]
      exact (visited_frame o stem seg _ _).1

theorem step_fine [DecidableRel before] (positive : 0 < maxAttempts) {a : Event} {t : Recorder}
    (inv : Inv maxAttempts s) (regular : Regular before s a)
    (taken : step before maxAttempts s a = some t) : Fine maxAttempts s a t where
  bounded := fun o stem seg attempt =>
    attempts_below inv a o stem seg attempt (regular.marked o stem seg attempt)
  failed := by
    intro o stem seg attempt failed
    obtain ⟨found, k, change, same, segments⟩ := attempts_segments before attempt taken
    obtain ⟨inSegments, rfl⟩ := segment_mem found
    rw [segments]
    refine ⟨_, mem_map_of_mem (mem_map_of_mem inSegments), ?_⟩
    rw [(same _).1, (same _).2, if_pos rfl]
    refine ⟨applyAll_stem _ seg, applyAll_ts _ seg ?_⟩
    intro effect member
    exact attemptTs_stays o seg failed effect (mem_of_mem_take member)
  kept := (step_inv before positive inv regular taken).2
  waits := by
    intro stem scans writing
    cases scans with
    | file o crash session stem rest active next periodic =>
      apply inv.waiting session active periodic stem writing
      rw [next]
      exact mem_cons_self

end Steps

/-- Every step of the run gives the `.ts` files what it owes them. -/
def AlwaysFine (before : Text → Text → Prop) [DecidableRel before] (maxAttempts : Nat)
    (disk : List Segment) (events : List Event) : Prop :=
  ∀ n s t a, Runs.run (step before maxAttempts) (.boot disk) (events.take n) = some s →
    events[n]? = some a → step before maxAttempts s a = some t → Fine maxAttempts s a t

/-- Whatever the disk holds when the process starts, and whatever happens then: every `.ts` is
attempted in vain no more often than configured, nothing is removed that is owed to stay, and a
periodic scan does not look into the file that is being written. -/
theorem segments_quarantined (before : Text → Text → Prop) [DecidableRel before]
    (configured : Option Rat) (disk : List Segment) (distinct : (disk.map Segment.stem).Nodup)
    (events : List Event)
    (regular : Runs.Allowed (step before (getSegmentRemuxMaxAttempts configured)) (Regular before)
      (.boot disk) events) :
    AlwaysFine before (getSegmentRemuxMaxAttempts configured) disk events := by
  intro n s t a reached next taken
  have positive := maxAttempts_pos configured
  have preserves : Runs.Preserves (step before (getSegmentRemuxMaxAttempts configured))
      (Regular before) (Inv (getSegmentRemuxMaxAttempts configured)) :=
    fun _ _ _ regular inv taken => (step_inv before positive inv regular taken).1
  have starts : Inv (getSegmentRemuxMaxAttempts configured) (.boot disk) :=
    restart_inv distinct positive
  have inv := Runs.invariant_along _ preserves _ s events n regular starts reached
  exact step_fine before positive inv (regular.at_step _ reached next) taken

/-- The steps that are regular, as far as a computation can tell. -/
def settled (before : Text → Text → Prop) [DecidableRel before] (s : Recorder) : Event → Bool
  | .openSegment stem => s.active.all fun session => session.finalize || stem ∉ session.queue
  | .beginScan false => s.writing.all fun stem => stem ∉ (tsFiles before s).dropLast
  | .visitFile _ _ => (s.active.bind fun session => session.queue.head?).all fun stem =>
    stem ∉ s.unmarked && (s.segment stem).all Segment.named
  | .visitCandidate _ _ => (s.recovery.bind fun recovery => recovery.candidates.head?).all
      fun candidate => candidate.1 ∉ s.unmarked && (s.segment candidate.1).all Segment.named
  | _ => true

theorem settled_regular [DecidableRel before] (s : Recorder) (a : Event)
    (settles : settled before s a = true) : Regular before s a where
  marked := by
    intro o stem seg attempt
    cases attempt with
    | scan o crash session stem rest seg active next unknown found present called =>
      simp only [settled, active, next, Option.bind_some, List.head?_cons, Option.all_some,
        Bool.and_eq_true, decide_eq_true_eq] at settles
      exact settles.1
    | recovery o crash recovery stem rest seg inactive running next found called solid =>
      simp only [settled, running, next, Option.bind_some, List.head?_cons, Option.all_some,
        Bool.and_eq_true, decide_eq_true_eq] at settles
      exact settles.1
  named := by
    intro stem seg visit
    cases visit with
    | scan o crash session stem rest seg active next found =>
      simp only [settled, active, next, Option.bind_some, List.head?_cons, Option.all_some,
        Bool.and_eq_true, found] at settles
      exact settles.2
    | recovery o crash recovery stem kind rest seg running next found =>
      simp only [settled, running, next, Option.bind_some, List.head?_cons, Option.all_some,
        Bool.and_eq_true, found] at settles
      exact settles.2
  last := by
    rintro rfl stem writing
    simpa [settled, writing] using settles
  fresh := by
    rintro stem rfl session active periodic
    simpa [settled, active, periodic] using settles

def brokenRun : FfmpegRun := ⟨[], .failed, true⟩

/-- No remux works, and the marker cannot be written. -/
def brokenOracle : Oracle :=
  { goodOracle with first := brokenRun, second := brokenRun, third := brokenRun, marks := false }

abbrev anyOrder (_ _ : Text) : Prop := True

def recovery : List Event :=
  [.beginRecovery [(closedSegment.stem, .ts)], .visitCandidate brokenOracle none]

/-- Three recoveries, each with an attempt in vain. -/
def recoveries : List Event := recovery ++ recovery ++ recovery

theorem recoveries_quarantined : AlwaysFine anyOrder 3 [closedSegment] recoveries := by
  apply segments_quarantined anyOrder (some 3) [closedSegment] (nodup_singleton _) recoveries
  apply Runs.Allowed.mono (step anyOrder 3) (settled_regular anyOrder)
  apply Runs.allowedBy_allowed
  decide +kernel

/-- Where the marker could not be written, the next recovery attempts the file once more. -/
theorem fourthRecovery_attempts : ¬∀ (before : Text → Text → Prop) [DecidableRel before]
    (configured : Option Rat) (disk : List Segment), (disk.map Segment.stem).Nodup →
    ∀ events, AlwaysFine before (getSegmentRemuxMaxAttempts configured) disk events := by
  intro always
  have fine := always anyOrder (some 3) [closedSegment] (nodup_singleton _)
    (recoveries ++ recovery) 7
  have starts : (Runs.run (step anyOrder 3) (.boot [closedSegment])
      ((recoveries ++ recovery).take 7)).isSome = true := by decide +kernel
  obtain ⟨s, reached⟩ := Option.isSome_iff_exists.mp starts
  have facts : ∀ p : Recorder → Bool, ((Runs.run (step anyOrder 3) (.boot [closedSegment])
      ((recoveries ++ recovery).take 7)).all p) = true → p s = true := by
    intro p holds
    rwa [reached] at holds
  have inactive : s.active = none := of_decide_eq_true (facts (fun s => s.active = none)
    (by decide +kernel))
  have running : s.recovery = some ⟨[(closedSegment.stem, .ts)], []⟩ := of_decide_eq_true
    (facts (fun s => s.recovery = some ⟨[(closedSegment.stem, .ts)], []⟩) (by decide +kernel))
  have found : s.segment closedSegment.stem = some closedSegment := of_decide_eq_true
    (facts (fun s => s.segment closedSegment.stem = some closedSegment) (by decide +kernel))
  have spent : s.tries closedSegment.stem = 3 := of_decide_eq_true
    (facts (fun s => s.tries closedSegment.stem = 3) (by decide +kernel))
  have attempt : Attempts s (.visitCandidate brokenOracle none) brokenOracle closedSegment.stem
      closedSegment :=
    .recovery brokenOracle none ⟨[(closedSegment.stem, .ts)], []⟩ closedSegment.stem []
      closedSegment inactive running rfl found (by decide +kernel) (by decide +kernel)
  obtain ⟨t, taken⟩ : ∃ t, step anyOrder 3 s (.visitCandidate brokenOracle none) = some t := by
    rw [step, running]
    exact ⟨_, rfl⟩
  have below := (fine s t _ reached rfl taken).bounded _ _ _ attempt
  rw [spent] at below
  exact absurd below (lt_irrefl 3)

end DracVms.SegmentScan
