import DracVms.Library.Runs
import DracVms.Recordings.RetentionCycle

namespace DracVms.RetentionCycle

open Json Database Protection

/-- No recording was protected when a cycle deleted its row. -/
def Kept (s : System) : Prop := ∀ entry ∈ s.deleted, entry.2 = false

/-- Where a cycle deletes a row, its snapshot has what the tables say about it: the recording is not
protected, or it was when the snapshot was taken. -/
def Current (s : System) : Event → Prop
  | .resume true =>
    match s.phase with
    | .remove _ id _ => s.acervo.has id = true →
        id ∈ (getProtectionSets s.acervo.tables).recordingIds → id ∈ s.protection.recordingIds
    | _ => True
  | _ => True

/-- The recording that is to be deleted. -/
def Phase.target : Phase → Option Text
  | .clipsOf _ id => some id
  | .remove _ id _ => some id
  | _ => none

/-- The row that the transaction deletes. -/
def Phase.removes : Phase → Option Text
  | .remove _ id _ => some id
  | _ => none

/-- The snapshot has been asked about it. -/
def Checked (s : System) : Prop := ∀ id, s.phase.target = some id → id ∉ s.protection.recordingIds

theorem kept_target (loop : Loop) : loop.kept.target = none := by cases loop <;> rfl

theorem deleted_target (loop : Loop) : loop.deleted.target = none := by cases loop <;> rfl

variable (s : System)

theorem current_iff : Current s (.resume true) ↔ ∀ id ∈ s.phase.removes, s.acervo.has id = true →
    id ∈ (getProtectionSets s.acervo.tables).recordingIds → id ∈ s.protection.recordingIds := by
  cases phase : s.phase
  all_goals simp [Current, phase, Phase.removes]

theorem deleteRecording_checked (loop : Loop) (id : Text) :
    Checked (s.at (deleteRecording s loop id)) := by
  intro other target
  unfold deleteRecording System.at at target
  split at target
  · rw [kept_target] at target
    cases target
  · rename_i unprotected
    cases target
    exact unprotected

theorem checked_of_none {s : System} (idle : s.phase.target = none) : Checked s := by
  intro id target
  rw [idle] at target
  cases target

theorem visitRecording_checked (pass : Pass) : Checked (s.at (visitRecording s pass)) := by
  unfold visitRecording
  split
  · exact checked_of_none rfl
  · dsimp only
    split
    · exact checked_of_none rfl
    · split
      · split
        all_goals exact checked_of_none rfl
      · exact deleteRecording_checked s _ _

theorem eachRecording_checked (guard : Guardian) (ok : Bool) :
    Checked (eachRecording s guard ok) := by
  unfold eachRecording
  split
  · apply checked_of_none
    show (ite _ _ _ : Phase).target = none
    split
    all_goals rfl
  · dsimp only
    split
    · apply checked_of_none
      show (ite _ _ _ : Phase).target = none
      split
      · exact deleted_target _
      · exact kept_target _
    · exact deleteRecording_checked s _ _

theorem eachRecording_frame (guard : Guardian) (ok : Bool) :
    (eachRecording s guard ok).deleted = s.deleted ∧
      (eachRecording s guard ok).protection = s.protection ∧
      (eachRecording s guard ok).acervo.investigationItems = s.acervo.investigationItems ∧
      (eachRecording s guard ok).acervo.exportedClips = s.acervo.exportedClips := by
  unfold eachRecording
  split
  · exact ⟨rfl, rfl, rfl, rfl⟩
  · dsimp only
    split
    all_goals exact ⟨rfl, rfl, rfl, rfl⟩

theorem nextPage_target (pass : Pass) : (nextPage s pass).target = none := by
  unfold nextPage
  split
  · rfl
  · split
    · rfl
    · dsimp only
      split
      all_goals rfl

theorem kept_beside {s t : System} {a : Event} (same : t.deleted = s.deleted) (checked : Checked t)
    (current : Current s a) : Checked t ∧ (Kept s → (Kept t ↔ Current s a)) := by
  refine ⟨checked, ?_⟩
  intro kept
  refine iff_of_true ?_ current
  rw [Kept, same]
  exact kept

theorem remove_kept (loop : Loop) (id : Text) (clips : List Text) (checked : Checked s)
    (phase : s.phase = .remove loop id clips) (t : System) (taken : resume s true = some t) :
    Checked t ∧ (Kept s → (Kept t ↔ Current s (.resume true))) := by
  have unseen : id ∉ s.protection.recordingIds := checked id (by rw [phase]; rfl)
  have current : Current s (.resume true) ↔ (s.acervo.has id = true →
      id ∈ (getProtectionSets s.acervo.tables).recordingIds → id ∈ s.protection.recordingIds) := by
    rw [Current, phase]
  rw [resume, phase] at taken
  dsimp only at taken
  rw [Bool.true_and] at taken
  split at taken
  · rename_i here
    cases taken
    refine ⟨checked_of_none (deleted_target loop), ?_⟩
    intro kept
    rw [current]
    constructor
    · intro still _ now
      have noted := still (id, s.acervo.isProtected id)
        (List.mem_append_right _ (List.mem_singleton_self _))
      exact absurd now (of_decide_eq_false noted)
    · intro known entry member
      rcases List.mem_append.mp member with old | new
      · exact kept entry old
      · rw [List.mem_singleton.mp new]
        exact decide_eq_false fun now => unseen (known here now)
  · rename_i gone
    cases taken
    have idle : (s.at loop.kept).phase.target = none := kept_target loop
    refine kept_beside rfl (checked_of_none idle) (current.mpr ?_)
    exact fun here => absurd here gone

/-- A call goes on, before the transaction of a deletion. -/
theorem resume_checked {s t : System} {ok : Bool} (checked : Checked s)
    (taken : resume s ok = some t) (unsettled : ∀ loop id clips, s.phase ≠ .remove loop id clips) :
    t.deleted = s.deleted ∧ Checked t := by
  cases phase : s.phase
  case remove loop id clips => exact absurd phase (unsettled loop id clips)
  all_goals
    rw [resume, phase] at taken
    cases taken
  case visit pass => exact ⟨rfl, visitRecording_checked s pass⟩
  case each guard => exact ⟨(eachRecording_frame s guard ok).1, eachRecording_checked s guard ok⟩
  case page pass =>
    split
    · exact ⟨rfl, checked_of_none (nextPage_target s pass)⟩
    · exact ⟨rfl, checked_of_none rfl⟩
  case percent | naNuvem =>
    split
    · exact ⟨rfl, checked_of_none rfl⟩
    · split
      all_goals exact ⟨rfl, checked_of_none rfl⟩
  case clipsOf loop id =>
    split
    · exact ⟨rfl, checked_of_none (kept_target loop)⟩
    · refine ⟨rfl, ?_⟩
      rintro other ⟨⟩
      exact checked id (by rw [phase]; rfl)
  all_goals
    split
    all_goals exact ⟨rfl, checked_of_none rfl⟩

theorem current_of_unsettled {s : System}
    (unsettled : ∀ loop id clips, s.phase ≠ .remove loop id clips) (ok : Bool) :
    Current s (.resume ok) := by
  cases ok with
  | false => trivial
  | true =>
    rw [Current]
    split
    · rename_i loop id clips phase
      exact absurd phase (unsettled loop id clips)
    · trivial

theorem step_kept (s t : System) (a : Event) (checked : Checked s) (taken : step s a = some t) :
    Checked t ∧ (Kept s → (Kept t ↔ Current s a)) := by
  cases a with
  | edit acervo =>
    cases taken
    exact kept_beside rfl checked trivial
  | start config =>
    rw [step] at taken
    split at taken
    · cases taken
      exact kept_beside rfl (checked_of_none rfl) trivial
    · cases taken
  | resume ok =>
    rw [step] at taken
    by_cases unsettled : ∀ loop id clips, s.phase ≠ .remove loop id clips
    · obtain ⟨same, checkedT⟩ := resume_checked checked taken unsettled
      exact kept_beside same checkedT (current_of_unsettled unsettled ok)
    · push Not at unsettled
      obtain ⟨loop, id, clips, phase⟩ := unsettled
      cases ok with
      | true => exact remove_kept s loop id clips checked phase t taken
      | false =>
        rw [resume, phase] at taken
        cases taken
        have idle : (s.at loop.kept).phase.target = none := kept_target loop
        exact kept_beside rfl (checked_of_none idle) trivial

/-- Over every run of cycles, with edits of the tables in between at any moment: no cycle deletes a
recording that is protected, exactly if each one it deletes is as its snapshot says. -/
theorem protected_kept_iff (start : System) (idle : start.phase = .idle)
    (fresh : start.deleted = []) (events : List Event) (s : System)
    (reached : Runs.run step start events = some s) :
    (∀ n t, Runs.run step start (events.take n) = some t → Kept t) ↔
      Runs.Allowed step Current start events := by
  have exact_step : ∀ s a t, Checked s → step s a = some t →
      Checked t ∧ (Kept s → (Kept t ↔ Current s a)) := fun s a t checked taken =>
    step_kept s t a checked taken
  have checked : Checked start := checked_of_none (by rw [idle]; rfl)
  have kept : Kept start := by
    rw [Kept, fresh]
    nofun
  exact Runs.prefixes_iff_allowed step exact_step start s events checked kept reached

/-! When the protections are in time. -/

/-- How many queries of the snapshot are behind a cycle. -/
def Phase.asked : Phase → Nat
  | .idle | .holds => 0
  | .evidence => 1
  | .clips => 2
  | _ => 3

/-- The snapshot has what the queries that are behind would find now. -/
structure Seen (asked : Nat) (sets : ProtectionSets) (acervo : Acervo) : Prop where
  first : 1 ≤ asked → (holds acervo.investigationItems).recordingIds ⊆ sets.recordingIds ∧
    (holds acervo.investigationItems).clipIds ⊆ sets.clipIds
  second : 2 ≤ asked → (evidence acervo.investigationItems).recordingIds ⊆ sets.recordingIds ∧
    (evidence acervo.investigationItems).clipIds ⊆ sets.clipIds
  third : 3 ≤ asked → sourceRecordings acervo.exportedClips sets.clipIds ⊆ sets.recordingIds

/-- While a cycle is under way, an edit protects nothing that a query behind it has not found. -/
def Timely (s : System) : Event → Prop
  | .edit acervo => Seen s.phase.asked s.protection acervo
  | _ => True

section Timely

variable {s : System} {sets : ProtectionSets} {acervo other : Acervo}

theorem seen_unasked : Seen 0 sets acervo := by constructor <;> simp

theorem sourceRecordings_subset {clips more : List ExportedClip} {ids known : List Text}
    (fewer : clips ⊆ more) (marked : ids ⊆ known) :
    sourceRecordings clips ids ⊆ sourceRecordings more known := by
  intro id cut
  obtain ⟨clip, listed, rfl⟩ := List.mem_map.mp cut
  obtain ⟨here, own⟩ := List.mem_filter.mp listed
  have still : decide (clip.id ∈ known) = true := decide_eq_true (marked (of_decide_eq_true own))
  exact List.mem_map_of_mem (List.mem_filter.mpr ⟨fewer here, still⟩)

theorem Seen.complete (seen : Seen 3 sets acervo) :
    (getProtectionSets acervo.tables).recordingIds ⊆ sets.recordingIds := by
  obtain ⟨held, heldClips⟩ := seen.first (by decide)
  obtain ⟨evident, evidentClips⟩ := seen.second (by decide)
  have clips : (holds acervo.investigationItems).clipIds ++
      (evidence acervo.investigationItems).clipIds ⊆ sets.clipIds :=
    List.append_subset.mpr ⟨heldClips, evidentClips⟩
  have cut := List.Subset.trans (sourceRecordings_subset (List.Subset.refl acervo.exportedClips)
    clips) (seen.third (by decide))
  simpa [getProtectionSets, unir, Acervo.tables] using ⟨held, evident, cut⟩

theorem Seen.narrow (seen : Seen 3 sets acervo)
    (items : other.investigationItems = acervo.investigationItems)
    (clips : other.exportedClips ⊆ acervo.exportedClips) (asked : Nat) : Seen asked sets other where
  first _ := items ▸ seen.first (by decide)
  second _ := items ▸ seen.second (by decide)
  third _ := List.Subset.trans (sourceRecordings_subset clips (List.Subset.refl _))
    (seen.third (by decide))

theorem current_of_seen (seen : Seen s.phase.asked s.protection s.acervo) (ok : Bool) :
    Current s (.resume ok) := by
  cases ok with
  | false => trivial
  | true =>
    refine (current_iff s).mpr fun id removes _ now => ?_
    cases phase : s.phase
    all_goals rw [phase] at removes seen
    case remove => exact Seen.complete seen now
    all_goals cases removes

theorem resume_seen {t : System} {ok : Bool} (seen : Seen s.phase.asked s.protection s.acervo)
    (taken : resume s ok = some t) : Seen t.phase.asked t.protection t.acervo := by
  cases phase : s.phase
  all_goals
    rw [resume, phase] at taken
    rw [phase] at seen
    cases taken
  case holds =>
    split
    · exact ⟨fun _ => ⟨fun _ => id, fun _ => id⟩, by simp [Phase.asked], by simp [Phase.asked]⟩
    · exact seen_unasked
  case evidence =>
    obtain ⟨held, clips⟩ := seen.first (by decide)
    split
    · refine ⟨fun _ => ⟨?_, ?_⟩, fun _ => ⟨?_, ?_⟩, by simp [Phase.asked]⟩
      all_goals simp [unir, held, clips]
    · exact seen_unasked
  case clips =>
    obtain ⟨held, heldClips⟩ := seen.first (by decide)
    obtain ⟨evident, evidentClips⟩ := seen.second (by decide)
    split
    · exact ⟨fun _ => ⟨List.subset_append_of_subset_left _ held, heldClips⟩,
        fun _ => ⟨List.subset_append_of_subset_left _ evident, evidentClips⟩,
        fun _ => List.subset_append_right _ _⟩
    · exact seen_unasked
  case remove =>
    split
    · refine Seen.narrow seen ?_ ?_ _
      · rfl
      · exact List.filter_subset_self _
    · exact Seen.narrow seen rfl (List.Subset.refl _) _
  case each guard =>
    obtain ⟨-, same, items, clips⟩ := eachRecording_frame s guard ok
    rw [same]
    exact Seen.narrow seen items (clips ▸ List.Subset.refl _) _
  all_goals exact Seen.narrow seen rfl (List.Subset.refl _) _

/-- Over every run in which each protection comes in time for the queries of the cycle under way, no
cycle deletes a recording that is protected. -/
theorem kept_of_timely (start : System) (idle : start.phase = .idle) (fresh : start.deleted = [])
    (events : List Event) (timely : Runs.Allowed step Timely start events) (s : System)
    (reached : Runs.run step start events = some s) : Kept s := by
  have preserves : Runs.Preserves step Timely fun s =>
      (Checked s ∧ Kept s) ∧ Seen s.phase.asked s.protection s.acervo := by
    rintro s a t fine ⟨⟨checked, kept⟩, seen⟩ taken
    obtain ⟨checkedT, exact_⟩ := step_kept s t a checked taken
    cases a with
    | edit acervo =>
      cases taken
      exact ⟨⟨checkedT, kept⟩, fine⟩
    | start config =>
      have same := (exact_ kept).mpr trivial
      rw [step] at taken
      split at taken
      all_goals cases taken
      exact ⟨⟨checkedT, same⟩, seen_unasked⟩
    | resume ok =>
      exact ⟨⟨checkedT, (exact_ kept).mpr (current_of_seen seen ok)⟩, resume_seen seen taken⟩
  refine (Runs.run_invariant step preserves start s events timely ⟨⟨?_, ?_⟩, ?_⟩ reached).1.2
  · exact checked_of_none (by rw [idle]; rfl)
  · rw [Kept, fresh]
    nofun
  · rw [idle]
    exact seen_unasked

end Timely

instance (s : System) : ∀ a, Decidable (Current s a)
  | .edit _ | .start _ | .resume false => isTrue trivial
  | .resume true => decidable_of_iff _ (current_iff s).symm

/-- A recording of the first day, of a camera that is gone. -/
def oldRow (id : Text) : Row :=
  ⟨⟨id, ['c'], [], 0, some 1, id, none, none, none, none, none, none⟩, none⟩

def noCycle (rows : List Row) : System :=
  ⟨⟨rows, [], [], []⟩, ⟨false, ⟨false, false, 0, 0⟩, ⟨500, 20000, by decide⟩, 3, false, 0⟩,
    ⟨[], [], []⟩, .idle, []⟩

/-- An operator puts the recording into an investigation. -/
def evidenced (rows : List Row) (id : Text) : Acervo :=
  ⟨rows, [⟨['i'], ['r'], some id, none, none, 0⟩], [], []⟩

def tenDays : Config :=
  ⟨false, ⟨false, false, 0, 0⟩, ⟨500, 20000, by decide⟩, 3, false, 864000000⟩

def twoOld : List Row := [oldRow ['a'], oldRow ['b']]

/-- The first recording is evidence before the cycle starts; the second one goes. -/
def evidenceFirst : List Event :=
  [.edit (evidenced twoOld ['a']), .start tenDays] ++ List.replicate 10 (.resume true)

theorem evidenceFirst_kept : ∃ s, Runs.run step (noCycle twoOld) evidenceFirst = some s ∧
    s.deleted = [(['b'], false)] ∧
    ∀ n t, Runs.run step (noCycle twoOld) (evidenceFirst.take n) = some t → Kept t := by
  have ends : (Runs.run step (noCycle twoOld) evidenceFirst).any (fun s =>
      s.deleted = [(['b'], false)]) = true := by decide +kernel
  obtain ⟨s, reached, deleted⟩ := (Option.any_eq_true _ _).mp ends
  refine ⟨s, reached, of_decide_eq_true deleted, ?_⟩
  apply (protected_kept_iff (noCycle twoOld) rfl rfl evidenceFirst s reached).mpr
  apply Runs.allowedBy_allowed
  decide +kernel

/-- The recording becomes evidence after the snapshot, while the cycle deletes it. -/
def evidenceLate : List Event :=
  [.start tenDays] ++ List.replicate 5 (.resume true) ++
    [.edit (evidenced [oldRow ['a']] ['a'])] ++ List.replicate 3 (.resume true)

theorem evidenceLate_deleted : ¬∀ start : System, start.phase = .idle → start.deleted = [] →
    ∀ (events : List Event) s, Runs.run step start events = some s → Kept s := by
  intro always
  have ends : (Runs.run step (noCycle [oldRow ['a']]) evidenceLate).any (fun s =>
      s.deleted = [(['a'], true)]) = true := by decide +kernel
  obtain ⟨s, reached, deleted⟩ := (Option.any_eq_true _ _).mp ends
  have kept := always (noCycle [oldRow ['a']]) rfl rfl evidenceLate s reached
  rw [Kept, of_decide_eq_true deleted] at kept
  cases kept _ (List.mem_singleton_self _)

end DracVms.RetentionCycle
