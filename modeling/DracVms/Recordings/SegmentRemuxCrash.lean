import DracVms.Recordings.SegmentRemux
import DracVms.Library.Runs

namespace DracVms.SegmentRemux

open List

open Json (Text)

theorem applyAll_append (seg : Segment) (first second : List Effect) :
    applyAll seg (first ++ second) = applyAll (applyAll seg first) second :=
  foldl_append

/-- The property holds before the effects, after each of them, and so wherever they are cut off. -/
def Throughout (prop : Segment → Prop) : Segment → List Effect → Prop
  | seg, [] => prop seg
  | seg, effect :: rest => prop seg ∧ Throughout prop (effect.apply seg) rest

variable {seg : Segment}

section Throughout

variable {prop : Segment → Prop}

theorem Throughout.take {effects : List Effect} (throughout : Throughout prop seg effects)
    (k : Nat) : prop (applyAll seg (effects.take k)) := by
  induction effects generalizing seg k with
  | nil =>
    rw [take_nil]
    exact throughout
  | cons effect rest ih =>
    cases k with
    | zero => exact throughout.1
    | succ k => exact ih throughout.2 k

theorem Throughout.ends {effects : List Effect} (throughout : Throughout prop seg effects) :
    prop (applyAll seg effects) := by
  have last := throughout.take effects.length
  rwa [take_length] at last

theorem Throughout.append {first second : List Effect} (before : Throughout prop seg first)
    (after : Throughout prop (applyAll seg first) second) :
    Throughout prop seg (first ++ second) := by
  induction first generalizing seg with
  | nil => exact after
  | cons effect rest ih => exact ⟨before.1, ih before.2 after⟩

end Throughout

/-- The effect is on the `.mp4` itself. -/
def Effect.writes : Effect → Bool
  | .writeMp4 _ => true
  | .removeMp4 => true
  | _ => false

theorem apply_mp4 (seg : Segment) (effect : Effect) (other : effect.writes = false) :
    (effect.apply seg).mp4 = seg.mp4 := by
  cases effect with
  | writeMp4 video | removeMp4 => cases other
  | saveRow | removeTs => rfl
  | forget kind | fail kind maxAttempts marks => cases kind <;> rfl

theorem applyAll_mp4 (seg : Segment) (effects : List Effect)
    (others : ∀ effect ∈ effects, effect.writes = false) :
    (applyAll seg effects).mp4 = seg.mp4 := by
  induction effects generalizing seg with
  | nil => rfl
  | cons effect rest ih =>
    have later := ih (effect.apply seg) fun other member =>
      others other (mem_cons_of_mem _ member)
    exact later.trans (apply_mp4 seg effect (others effect mem_cons_self))

theorem applyAll_writes (seg : Segment) (effects : List Effect)
    (writes : ∀ effect ∈ effects, effect.writes = true) :
    ∃ video, applyAll seg effects = { seg with mp4 := video } := by
  induction effects generalizing seg with
  | nil => exact ⟨seg.mp4, rfl⟩
  | cons effect rest ih =>
    obtain ⟨video, later⟩ := ih (effect.apply seg) fun other member =>
      writes other (mem_cons_of_mem _ member)
    refine ⟨video, ?_⟩
    show applyAll (effect.apply seg) rest = _
    rw [later]
    have here := writes effect mem_cons_self
    cases effect with
    | writeMp4 video | removeMp4 => rfl
    | saveRow | removeTs | forget kind | fail kind maxAttempts marks => cases here

theorem run_writes (run : FfmpegRun) : ∀ effect ∈ run.effects, effect.writes = true := by
  intro effect member
  rcases mem_append.mp member with progress | ending
  · obtain ⟨video, -, rfl⟩ := mem_map.mp progress
    rfl
  · unfold FfmpegRun.ending at ending
    split at ending
    · rw [mem_singleton.mp ending]
      rfl
    · rw [mem_singleton.mp ending]
      rfl
    · split at ending
      · rw [mem_singleton.mp ending]
        rfl
      · cases ending

theorem audioRuns_writes (o : Oracle) (seg : Segment) :
    ∀ effect ∈ audioRuns o seg, effect.writes = true := by
  intro effect member
  unfold audioRuns at member
  split at member
  · rcases mem_append.mp member with first | second
    · exact run_writes o.first effect first
    · exact run_writes o.second effect second
  · exact run_writes o.first effect member

theorem remuxTs_writes (o : Oracle) (seg : Segment) :
    ∀ effect ∈ (remuxTs o seg).1, effect.writes = true := by
  intro effect member
  unfold remuxTs at member
  split at member
  · split at member
    · rcases mem_append.mp member with before | after
      · exact audioRuns_writes o seg effect before
      · exact run_writes o.third effect after
    · exact audioRuns_writes o seg effect member
  · cases member

/-- The run of `ffmpeg` leaves the whole video. -/
def FfmpegRun.Works (run : FfmpegRun) : Prop := run.exit = .done

/-- The run of `ffmpeg` fails, and leaves nothing. -/
def FfmpegRun.Clean (run : FfmpegRun) : Prop :=
  run.exit = .blank ∨ run.exit = .failed ∧ run.cleans = true

/-- The `.ts` can be remuxed, `ffprobe` reads the result and the database takes it. -/
structure Oracle.Remuxable (o : Oracle) : Prop where
  works : o.first.Works ∨ o.first.Clean ∧ (o.second.Works ∨ o.second.Clean ∧ o.third.Works)
  reads : o.readsComplete = true
  saves : o.saves = true

theorem run_works (run : FfmpegRun) (seg : Segment) (works : run.Works) :
    (applyAll seg run.effects).mp4 = some .complete := by
  rw [FfmpegRun.effects, applyAll_append, FfmpegRun.ending, works]
  rfl

theorem run_clean (run : FfmpegRun) (seg : Segment) (clean : run.Clean) :
    lacksVideo (applyAll seg run.effects) = true := by
  rw [FfmpegRun.effects, applyAll_append, FfmpegRun.ending]
  rcases clean with blank | ⟨failed, cleans⟩
  · rw [blank]
    rfl
  · rw [failed, cleans]
    rfl

theorem complete_keeps (seg : Segment) (complete : seg.mp4 = some .complete) :
    lacksVideo seg = false := by
  rw [lacksVideo, complete]
  rfl

theorem audioRuns_clean (o : Oracle) (seg : Segment)
    (works : o.first.Works ∨ o.first.Clean ∧ o.second.Works) :
    (applyAll seg (audioRuns o seg)).mp4 = some .complete := by
  unfold audioRuns
  rcases works with first | ⟨clean, second⟩
  · have done := run_works o.first seg first
    rw [complete_keeps _ done, if_neg nofun]
    exact done
  · rw [run_clean o.first seg clean, if_pos rfl, applyAll_append]
    exact run_works o.second _ second

theorem remuxTs_complete (o : Oracle) (remuxable : o.Remuxable) (seg : Segment)
    (whole : seg.mp4 ≠ some .torn) :
    (applyAll seg (remuxTs o seg).1).mp4 = some .complete ∧ (remuxTs o seg).2 = true := by
  unfold remuxTs
  by_cases lacks : lacksVideo seg = true
  · rw [if_pos lacks]
    by_cases audio : o.first.Works ∨ o.first.Clean ∧ o.second.Works
    · have done := audioRuns_clean o seg audio
      rw [complete_keeps _ done, if_neg nofun]
      exact ⟨done, rfl⟩
    · obtain ⟨clean, clean', third⟩ :
          o.first.Clean ∧ o.second.Clean ∧ o.third.Works := by
        rcases remuxable.works with first | ⟨clean, second | ⟨clean', third⟩⟩
        · exact absurd (Or.inl first) audio
        · exact absurd (Or.inr ⟨clean, second⟩) audio
        · exact ⟨clean, clean', third⟩
      have missing : lacksVideo (applyAll seg (audioRuns o seg)) = true := by
        rw [audioRuns, run_clean o.first seg clean, if_pos rfl, applyAll_append]
        exact run_clean o.second _ clean'
      rw [missing, if_pos rfl, applyAll_append]
      refine ⟨run_works o.third _ third, ?_⟩
      rw [show o.third.exit = .done from third]
      rfl
  · rw [if_neg lacks]
    refine ⟨?_, rfl⟩
    show seg.mp4 = _
    cases mp4 : seg.mp4 with
    | none => simp [lacksVideo, mp4] at lacks
    | some video =>
      cases video with
      | empty => simp [lacksVideo, mp4] at lacks
      | torn => exact absurd mp4 whole
      | complete => rfl

/-- What holds of a segment between two effects, however often it was interrupted. -/
structure Sound (seg : Segment) : Prop where
  unmarked : seg.tsQuarantine.marker = false
  solid : seg.ts ≠ some 0
  named : seg.named = true
  once : seg.rows ≤ 1
  whole : 0 < seg.rows → seg.mp4 = some .complete
  kept : seg.ts = none → seg.rows = 1

variable {seg : Segment}

theorem Sound.write (sound : Sound seg) (absent : seg.rows = 0) (video : Option Video) :
    Sound { seg with mp4 := video } :=
  ⟨sound.unmarked, sound.solid, sound.named, sound.once,
    fun present => absurd absent (Nat.pos_iff_ne_zero.mp present), sound.kept⟩

/-- As long as there is no row, anything may happen to the `.mp4`. -/
theorem writes_sound (seg : Segment) (effects : List Effect) (sound : Sound seg)
    (absent : seg.rows = 0) (writes : ∀ effect ∈ effects, effect.writes = true) :
    Throughout Sound seg effects := by
  induction effects generalizing seg with
  | nil => exact sound
  | cons effect rest ih =>
    refine ⟨sound, ?_⟩
    obtain ⟨video, same⟩ := applyAll_writes seg [effect] fun other single => by
      rw [mem_singleton.mp single]
      exact writes effect mem_cons_self
    have here : effect.apply seg = { seg with mp4 := video } := same
    rw [here]
    exact ih _ (sound.write absent video) absent fun other member =>
      writes other (mem_cons_of_mem _ member)

/-- One row, for the whole video. -/
structure Recovered (seg : Segment) : Prop where
  row : seg.rows = 1
  video : seg.mp4 = some .complete

theorem Sound.recovered (sound : Sound seg) (present : 0 < seg.rows) : Recovered seg := by
  have once := sound.once
  exact ⟨by omega, sound.whole present⟩

theorem save_recovered (sound : Sound seg) (video : seg.mp4 = some .complete) :
    Sound (Effect.saveRow.apply seg) ∧ Recovered (Effect.saveRow.apply seg) := by
  have once := sound.once
  have one : (if seg.rows = 0 then 1 else seg.rows) = 1 := by
    split
    · rfl
    · omega
  refine ⟨⟨sound.unmarked, sound.solid, sound.named, ?_, fun _ => video, fun _ => one⟩, one, video⟩
  show (if seg.rows = 0 then 1 else seg.rows) ≤ 1
  rw [one]

theorem remove_sound (sound : Sound seg) (recovered : Recovered seg) :
    Sound (Effect.removeTs.apply seg) ∧ Recovered (Effect.removeTs.apply seg) :=
  ⟨⟨sound.unmarked, nofun, sound.named, sound.once, sound.whole, fun _ => recovered.row⟩,
    recovered.row, recovered.video⟩

theorem forget_sound (sound : Sound seg) (kind : Kind) :
    Sound ((Effect.forget kind).apply seg) := by
  cases kind <;>
    exact ⟨sound.unmarked, sound.solid, sound.named, sound.once, sound.whole, sound.kept⟩

theorem failMp4_sound (sound : Sound seg) (maxAttempts : Nat) (marks : Bool) :
    Sound ((Effect.fail .mp4 maxAttempts marks).apply seg) :=
  ⟨sound.unmarked, sound.solid, sound.named, sound.once, sound.whole, sound.kept⟩

theorem removal_sound (o : Oracle) (sound : Sound seg) (recovered : Recovered seg) :
    Throughout Sound seg o.removal ∧ Recovered (applyAll seg o.removal) := by
  unfold Oracle.removal
  split
  · obtain ⟨removed, still⟩ := remove_sound sound recovered
    exact ⟨⟨sound, removed⟩, still⟩
  · exact ⟨sound, recovered⟩

theorem Recovered.forget (recovered : Recovered seg) (kind : Kind) :
    Recovered ((Effect.forget kind).apply seg) := by
  cases kind <;> exact ⟨recovered.row, recovered.video⟩

theorem register_complete (o : Oracle) (remuxable : o.Remuxable) (seg : Segment)
    (named : seg.named = true) (video : seg.mp4 = some .complete) :
    registerSegment o seg = ([.saveRow], true) := by
  rw [registerSegment, named, video]
  simp [Oracle.reads, remuxable.reads, remuxable.saves]

variable (maxAttempts : Nat)

section

variable (o : Oracle) (remuxable : o.Remuxable)

include remuxable

theorem attemptTs_sound (seg : Segment) (sound : Sound seg) (whole : seg.mp4 ≠ some .torn) :
    Throughout Sound seg (attemptTs maxAttempts o seg).1 ∧
      Recovered (applyAll seg (attemptTs maxAttempts o seg).1) ∧
      (attemptTs maxAttempts o seg).2 = .done := by
  obtain ⟨complete, remuxed⟩ := remuxTs_complete o remuxable seg whole
  have writes := remuxTs_writes o seg
  obtain ⟨video, same⟩ := applyAll_writes seg (remuxTs o seg).1 writes
  have named : (applyAll seg (remuxTs o seg).1).named = true := by
    rw [same]
    exact sound.named
  have registered := register_complete o remuxable _ named complete
  have attempt : attemptTs maxAttempts o seg =
      ((remuxTs o seg).1 ++ [.saveRow] ++ o.removal ++ [.forget .ts], .done) := by
    rw [attemptTs, remuxAndRegisterTsSegment, if_neg sound.solid]
    dsimp only
    rw [remuxed, registered]
    rfl
  have remux : Throughout Sound seg (remuxTs o seg).1 := by
    by_cases absent : seg.rows = 0
    · exact writes_sound seg _ sound absent writes
    · have present := sound.whole (Nat.pos_of_ne_zero absent)
      rw [remuxTs, complete_keeps seg present, if_neg nofun]
      exact sound
  have remuxedSound := remux.ends
  obtain ⟨savedSound, saved⟩ := save_recovered remuxedSound complete
  obtain ⟨removal, removed⟩ := removal_sound o savedSound saved
  have save : Throughout Sound seg ((remuxTs o seg).1 ++ [.saveRow]) :=
    remux.append ⟨remuxedSound, savedSound⟩
  have after : applyAll seg ((remuxTs o seg).1 ++ [.saveRow]) =
      Effect.saveRow.apply (applyAll seg (remuxTs o seg).1) := applyAll_append _ _ _
  have before : Throughout Sound seg ((remuxTs o seg).1 ++ [.saveRow] ++ o.removal) := by
    apply save.append
    rw [after]
    exact removal
  have last : applyAll seg ((remuxTs o seg).1 ++ [.saveRow] ++ o.removal) =
      applyAll (Effect.saveRow.apply (applyAll seg (remuxTs o seg).1)) o.removal := by
    rw [applyAll_append, after]
  rw [attempt]
  refine ⟨before.append ⟨before.ends, forget_sound before.ends .ts⟩, ?_, rfl⟩
  rw [applyAll_append, last]
  exact removed.forget .ts

theorem scanSegment_sound (seg : Segment) (sound : Sound seg) (whole : seg.mp4 ≠ some .torn) :
    Throughout Sound seg (scanSegment maxAttempts o seg) ∧
      Recovered (applyAll seg (scanSegment maxAttempts o seg)) := by
  rw [scanSegment, sound.unmarked, if_neg nofun]
  cases ts : seg.ts with
  | none =>
    refine ⟨sound, sound.recovered ?_⟩
    rw [sound.kept ts]
    exact Nat.one_pos
  | some size =>
    have solid : size ≠ 0 := fun none => sound.solid (by rw [ts, none])
    dsimp only
    rw [if_neg solid]
    obtain ⟨throughout, recovered, -⟩ := attemptTs_sound maxAttempts o remuxable seg sound whole
    exact ⟨throughout, recovered⟩

theorem recoverTs_sound (registered : Bool) (seg : Segment) (sound : Sound seg)
    (whole : seg.mp4 ≠ some .torn) (known : registered = true → 0 < seg.rows) :
    Throughout Sound seg (recoverTs maxAttempts o registered seg).1 ∧
      Recovered (applyAll seg (recoverTs maxAttempts o registered seg).1) := by
  rw [recoverTs, sound.unmarked, if_neg nofun]
  cases registered with
  | true => exact removal_sound o sound (sound.recovered (known rfl))
  | false =>
    obtain ⟨throughout, recovered, -⟩ := attemptTs_sound maxAttempts o remuxable seg sound whole
    exact ⟨throughout, recovered⟩

theorem recoverMp4_sound (registered : Bool) (seg : Segment) (sound : Sound seg)
    (whole : seg.mp4 ≠ some .torn) (known : registered = true → 0 < seg.rows) :
    Throughout Sound seg (recoverMp4 maxAttempts o registered seg).1 ∧
      (applyAll seg (recoverMp4 maxAttempts o registered seg).1).mp4 = seg.mp4 ∧
      (Recovered seg → Recovered (applyAll seg (recoverMp4 maxAttempts o registered seg).1)) ∧
      ((recoverMp4 maxAttempts o registered seg).2 = true →
        0 < (applyAll seg (recoverMp4 maxAttempts o registered seg).1).rows) := by
  have fails : Throughout Sound seg [.fail .mp4 maxAttempts o.marks] :=
    ⟨sound, failMp4_sound sound maxAttempts o.marks⟩
  unfold recoverMp4
  split
  · exact ⟨sound, rfl, fun recovered => recovered, known⟩
  · cases mp4 : seg.mp4 with
    | none => exact ⟨fails, mp4, fun recovered => ⟨recovered.row, recovered.video⟩, known⟩
    | some video =>
      cases video with
      | empty => exact ⟨fails, mp4, fun recovered => ⟨recovered.row, recovered.video⟩, known⟩
      | torn => exact absurd mp4 whole
      | complete =>
        obtain ⟨savedSound, saved⟩ := save_recovered sound mp4
        have reads : o.reads .complete = true := remuxable.reads
        dsimp only
        rw [reads, if_pos rfl, register_complete o remuxable seg sound.named mp4]
        refine ⟨⟨sound, savedSound, forget_sound savedSound .mp4⟩, mp4,
          fun _ => saved.forget .mp4, fun _ => ?_⟩
        exact (saved.forget .mp4).row ▸ Nat.one_pos

end

variable (oracle : Kind → Oracle)

theorem recoverFiles_one (registered : Bool) (seg : Segment) (kind : Kind) :
    recoverFiles maxAttempts oracle registered seg [kind] =
      (recoverFile maxAttempts (oracle kind) registered seg kind).1 :=
  append_nil _

theorem recoverFiles_two (registered : Bool) (seg : Segment) (kind other : Kind) :
    recoverFiles maxAttempts oracle registered seg [kind, other] =
      (recoverFile maxAttempts (oracle kind) registered seg kind).1 ++
        (recoverFile maxAttempts (oracle other)
          (recoverFile maxAttempts (oracle kind) registered seg kind).2
          (applyAll seg (recoverFile maxAttempts (oracle kind) registered seg kind).1) other).1 :=
  congrArg (_ ++ ·) (append_nil _)

/-- The recovery of a whole video, whatever of it was left undone. -/
theorem recoverOrphanedSegments_sound (mp4First : Bool) (oracle : Kind → Oracle)
    (remuxable : ∀ kind, (oracle kind).Remuxable) (seg : Segment) (sound : Sound seg)
    (whole : seg.mp4 ≠ some .torn) :
    Throughout Sound seg (recoverOrphanedSegments maxAttempts mp4First oracle seg) ∧
      Recovered (applyAll seg (recoverOrphanedSegments maxAttempts mp4First oracle seg)) := by
  have known : decide (0 < seg.rows) = true → 0 < seg.rows := of_decide_eq_true
  have tsVisit := recoverTs_sound maxAttempts (oracle .ts) (remuxable .ts) _ seg sound whole known
  obtain ⟨mp4Throughout, mp4Same, -, mp4Known⟩ :=
    recoverMp4_sound maxAttempts (oracle .mp4) (remuxable .mp4) _ seg sound whole known
  unfold recoverOrphanedSegments orphans
  by_cases present : seg.ts.isSome = true
  · by_cases listed : (seg.mp4.isSome && seg.rows = 0) = true
    · rw [if_pos present, if_pos listed]
      cases mp4First with
      | true =>
        rw [if_pos rfl, singleton_append, recoverFiles_two]
        have still : (applyAll seg
            (recoverMp4 maxAttempts (oracle .mp4) (0 < seg.rows) seg).1).mp4 ≠ some .torn := by
          rw [mp4Same]
          exact whole
        obtain ⟨throughout, recovered⟩ := recoverTs_sound maxAttempts (oracle .ts) (remuxable .ts)
          (recoverMp4 maxAttempts (oracle .mp4) (0 < seg.rows) seg).2 _ mp4Throughout.ends still
          mp4Known
        refine ⟨mp4Throughout.append throughout, ?_⟩
        rw [applyAll_append]
        exact recovered
      | false =>
        rw [if_neg nofun, singleton_append, recoverFiles_two]
        obtain ⟨tsThroughout, tsRecovered⟩ := tsVisit
        have still : (applyAll seg
            (recoverTs maxAttempts (oracle .ts) (0 < seg.rows) seg).1).mp4 ≠ some .torn := by
          rw [tsRecovered.video]
          nofun
        obtain ⟨throughout, -, recovered, -⟩ := recoverMp4_sound maxAttempts (oracle .mp4)
          (remuxable .mp4) (recoverTs maxAttempts (oracle .ts) (0 < seg.rows) seg).2 _
          tsThroughout.ends still fun _ => tsRecovered.row ▸ Nat.one_pos
        refine ⟨tsThroughout.append throughout, ?_⟩
        rw [applyAll_append]
        exact recovered tsRecovered
    · rw [if_pos present, if_neg listed]
      cases mp4First with
      | true =>
        rw [if_pos rfl, nil_append, recoverFiles_one]
        exact tsVisit
      | false =>
        rw [if_neg nofun, append_nil, recoverFiles_one]
        exact tsVisit
  · have gone : seg.ts = none := Option.not_isSome_iff_eq_none.mp present
    have row := sound.kept gone
    have unlisted : (seg.mp4.isSome && seg.rows = 0) = false := by
      rw [row]
      exact Bool.and_false _
    rw [if_neg present, unlisted]
    have recovered := sound.recovered (row ▸ Nat.one_pos)
    cases mp4First with
    | true | false => exact ⟨sound, recovered⟩

inductive Routine where
  | scan
  | recovery (mp4First : Bool)

/-- A scan or a recovery of the segment, and the effect before which the process dies. -/
structure Trial where
  routine : Routine
  oracle : Kind → Oracle
  crash : Option Nat

def Routine.effects (maxAttempts : Nat) (oracle : Kind → Oracle) (seg : Segment) :
    Routine → List Effect
  | .scan => scanSegment maxAttempts (oracle .ts) seg
  | .recovery mp4First => recoverOrphanedSegments maxAttempts mp4First oracle seg

def Trial.run (maxAttempts : Nat) (seg : Segment) (trial : Trial) : Segment :=
  let effects := trial.routine.effects maxAttempts trial.oracle seg
  match trial.crash with
  | none => applyAll seg effects
  | some k => (applyAll seg (effects.take k)).restarted

def Trial.Remuxable (trial : Trial) : Prop := ∀ kind, (trial.oracle kind).Remuxable

def after (maxAttempts : Nat) (seg : Segment) (trials : List Trial) : Segment :=
  trials.foldl (Trial.run maxAttempts) seg

theorem routine_sound (remuxable : ∀ kind, (oracle kind).Remuxable) (seg : Segment)
    (sound : Sound seg) (whole : seg.mp4 ≠ some .torn) (routine : Routine) :
    Throughout Sound seg (routine.effects maxAttempts oracle seg) ∧
      Recovered (applyAll seg (routine.effects maxAttempts oracle seg)) := by
  cases routine with
  | scan => exact scanSegment_sound maxAttempts (oracle .ts) (remuxable .ts) seg sound whole
  | recovery mp4First =>
    exact recoverOrphanedSegments_sound maxAttempts mp4First oracle remuxable seg sound whole

theorem restarted_sound (sound : Sound seg) : Sound seg.restarted :=
  ⟨sound.unmarked, sound.solid, sound.named, sound.once, sound.whole, sound.kept⟩

theorem trial_sound (trial : Trial) (remuxable : trial.Remuxable) (seg : Segment)
    (sound : Sound seg) (whole : seg.mp4 ≠ some .torn) : Sound (trial.run maxAttempts seg) := by
  obtain ⟨throughout, -⟩ := routine_sound maxAttempts trial.oracle remuxable seg sound whole
    trial.routine
  unfold Trial.run
  cases trial.crash with
  | none => exact throughout.ends
  | some k => exact restarted_sound (throughout.take k)

theorem apply_stem (seg : Segment) (effect : Effect) : (effect.apply seg).stem = seg.stem := by
  cases effect with
  | writeMp4 video | removeMp4 | saveRow | removeTs => rfl
  | forget kind | fail kind maxAttempts marks => cases kind <;> rfl

theorem applyAll_stem (effects : List Effect) (seg : Segment) :
    (applyAll seg effects).stem = seg.stem := by
  induction effects generalizing seg with
  | nil => rfl
  | cons effect rest ih => exact (ih (effect.apply seg)).trans (apply_stem seg effect)

theorem applyAll_named (effects : List Effect) (seg : Segment) :
    (applyAll seg effects).named = seg.named := by
  rw [Segment.named, Segment.mp4Name, applyAll_stem, Segment.named, Segment.mp4Name]

theorem registerSegment_cases (o : Oracle) (seg : Segment) :
    registerSegment o seg = ([.saveRow], true) ∨ registerSegment o seg = ([], false) ∨
      seg.named = false ∧ registerSegment o seg = ([], true) := by
  unfold registerSegment
  split
  · simp_all
  · split
    · simp
    · split <;> simp

theorem mem_removal {o : Oracle} {effect : Effect} (member : effect ∈ o.removal) :
    effect = .removeTs := by
  unfold Oracle.removal at member
  split at member <;> simp_all

theorem remuxAndRegister_cases (o : Oracle) (seg : Segment) :
    seg.ts = some 0 ∧ remuxAndRegisterTsSegment o seg = (o.removal, .discarded) ∨
    remuxAndRegisterTsSegment o seg = ((remuxTs o seg).1, .failed) ∨
    ∃ rows, (rows = [.saveRow] ∨ seg.named = false ∧ rows = []) ∧
      remuxAndRegisterTsSegment o seg = ((remuxTs o seg).1 ++ rows ++ o.removal, .done) := by
  have named := applyAll_named (remuxTs o seg).1 seg
  unfold remuxAndRegisterTsSegment
  rcases registerSegment_cases o (applyAll seg (remuxTs o seg).1) with same | same | ⟨other, same⟩
  · grind
  · grind
  · grind

theorem mem_attemptTs {maxAttempts : Nat} {o : Oracle} {effect : Effect}
    (member : effect ∈ (attemptTs maxAttempts o seg).1) :
    effect ∈ (remuxTs o seg).1 ∨ effect = .saveRow ∨ effect = .removeTs ∨
      effect = .fail .ts maxAttempts o.marks ∨ effect = .forget .ts := by
  unfold attemptTs at member
  have removal := @mem_removal o effect
  rcases remuxAndRegister_cases o seg with ⟨-, same⟩ | same | ⟨rows, saved, same⟩
  · grind
  · grind
  · grind

theorem mem_recoverMp4 {maxAttempts : Nat} {o : Oracle} {registered : Bool} {effect : Effect}
    (member : effect ∈ (recoverMp4 maxAttempts o registered seg).1) :
    effect = .saveRow ∨ effect = .forget .mp4 ∨ effect = .fail .mp4 maxAttempts o.marks := by
  unfold recoverMp4 at member
  rcases registerSegment_cases o seg with same | same | ⟨-, same⟩
  · grind
  · grind
  · grind

theorem attemptTs_torn (o : Oracle) (seg : Segment) (torn : seg.mp4 = some .torn) :
    ∀ effect ∈ (attemptTs maxAttempts o seg).1, effect.writes = false := by
  have nothing : remuxTs o seg = ([], true) := by
    rw [remuxTs, lacksVideo, torn]
    rfl
  intro effect member
  rcases mem_attemptTs member with writes | rfl | rfl | rfl | rfl
  · rw [nothing] at writes
    cases writes
  all_goals rfl

theorem recoverFile_torn (o : Oracle) (registered : Bool) (seg : Segment)
    (torn : seg.mp4 = some .torn) (kind : Kind) :
    ∀ effect ∈ (recoverFile maxAttempts o registered seg kind).1, effect.writes = false := by
  intro effect member
  cases kind with
  | ts =>
    rw [recoverFile, recoverTs] at member
    split at member
    · cases member
    · split at member
      · rw [mem_removal member]
        rfl
      · exact attemptTs_torn maxAttempts o seg torn effect member
  | mp4 => rcases mem_recoverMp4 member with rfl | rfl | rfl <;> rfl

theorem recoverFiles_torn (kinds : List Kind) (registered : Bool) (seg : Segment)
    (torn : seg.mp4 = some .torn) :
    ∀ effect ∈ recoverFiles maxAttempts oracle registered seg kinds, effect.writes = false := by
  induction kinds generalizing registered seg with
  | nil => nofun
  | cons kind rest ih =>
    have here := recoverFile_torn maxAttempts (oracle kind) registered seg torn kind
    intro effect member
    rcases mem_append.mp member with before | later
    · exact here effect before
    · exact ih _ _ ((applyAll_mp4 seg _ here).trans torn) effect later

theorem routine_torn (seg : Segment) (torn : seg.mp4 = some .torn) (routine : Routine) :
    ∀ effect ∈ routine.effects maxAttempts oracle seg, effect.writes = false := by
  cases routine with
  | scan =>
    intro effect member
    rw [Routine.effects, scanSegment] at member
    split at member
    · cases member
    · split at member
      · cases member
      · split at member
        · rw [mem_removal member]
          rfl
        · exact attemptTs_torn maxAttempts _ seg torn effect member
  | recovery mp4First => exact recoverFiles_torn maxAttempts oracle _ _ seg torn

/-- A `.ts` with some video in it, and nothing made of it yet. -/
structure Fresh (seg : Segment) : Prop where
  named : seg.named = true
  size : ∃ size, seg.ts = some size ∧ 0 < size
  mp4 : seg.mp4 = none
  rows : seg.rows = 0
  unmarked : seg.tsQuarantine.marker = false

theorem Fresh.sound (fresh : Fresh seg) : Sound seg := by
  obtain ⟨size, ts, above⟩ := fresh.size
  refine ⟨fresh.unmarked, ?_, fresh.named, ?_, ?_, ?_⟩
  · rw [ts]
    rintro ⟨⟩
    cases above
  · rw [fresh.rows]
    exact Nat.zero_le 1
  · intro present
    rw [fresh.rows] at present
    cases present
  · intro gone
    rw [ts] at gone
    cases gone

/-- What is never to happen: a row for less than the whole video, a `.ts` removed without one. -/
structure Safe (seg : Segment) : Prop where
  rows : 0 < seg.rows → seg.mp4 = some .complete
  ts : seg.ts = none → Recovered seg

/-- Every scan and every recovery, run to its end, brings the video in. -/
def Recoverable (maxAttempts : Nat) (seg : Segment) : Prop :=
  ∀ routine oracle, (∀ kind, Oracle.Remuxable (oracle kind)) →
    Recovered (applyAll seg (Routine.effects maxAttempts oracle seg routine))

def goodRun : FfmpegRun := ⟨[], .done, true⟩

def goodOracle : Oracle := ⟨goodRun, goodRun, goodRun, false, true, true, true, true⟩

theorem goodOracle_remuxable : goodOracle.Remuxable := ⟨Or.inl rfl, rfl, rfl⟩

/-- However often the process dies: every state is safe, and a scan or a recovery that runs to its
end brings the whole video in, exactly when no crash left a torn `.mp4`. -/
theorem crashes_recover_iff (maxAttempts : Nat) (seg : Segment) (fresh : Fresh seg)
    (trials : List Trial) (remuxable : ∀ trial ∈ trials, trial.Remuxable) :
    (∀ n, Safe (after maxAttempts seg (trials.take n)) ∧
      Recoverable maxAttempts (after maxAttempts seg (trials.take n))) ↔
    ∀ n, (after maxAttempts seg (trials.take n)).mp4 ≠ some .torn := by
  constructor
  · intro always n torn
    obtain ⟨-, recoverable⟩ := always n
    have recovered := recoverable .scan (fun _ => goodOracle) fun _ => goodOracle_remuxable
    have others := routine_torn maxAttempts (fun _ => goodOracle) _ torn .scan
    have still := (applyAll_mp4 _ _ others).trans torn
    rw [recovered.video] at still
    cases still
  · intro whole n
    have sound : Sound (after maxAttempts seg (trials.take n)) := by
      induction n with
      | zero => exact fresh.sound
      | succ n ih =>
        by_cases more : n < trials.length
        · rw [take_succ_eq_append_getElem more, after, foldl_append]
          exact trial_sound maxAttempts _ (remuxable _ (getElem_mem more)) _ ih (whole n)
        · rw [take_of_length_le (Nat.le_succ_of_le (not_lt.mp more))]
          rwa [take_of_length_le (not_lt.mp more)] at ih
    refine ⟨⟨sound.whole, fun gone => sound.recovered ?_⟩, ?_⟩
    · rw [sound.kept gone]
      exact Nat.one_pos
    · intro routine oracle good
      exact (routine_sound maxAttempts oracle good _ sound (whole n) routine).2

def closedSegment : Segment :=
  ⟨"2026-08-05_10-00-00".toList, some 4096, none, 0, ⟨0, false⟩, ⟨0, false⟩⟩

theorem closedSegment_fresh : Fresh closedSegment := by
  refine ⟨?_, ⟨4096, rfl, ?_⟩, rfl, rfl, rfl⟩
  · decide +kernel
  · decide

/-- A scan that dies after so many effects, its `ffmpeg` having written this on the way. -/
def interruptedScan (progress : List Video) (crash : Nat) : Trial :=
  ⟨.scan, fun _ => { goodOracle with first := { goodRun with progress } }, some crash⟩

theorem interruptedScan_remuxable (progress : List Video) (crash : Nat) :
    (interruptedScan progress crash).Remuxable := fun _ => ⟨Or.inl rfl, rfl, rfl⟩

/-- A crash on an output that is still empty, and one between the row and the removal. -/
theorem interruptedScans_recover : Fresh closedSegment ∧
      ∀ n, Safe (after 3 closedSegment
          ([interruptedScan [.empty] 1, interruptedScan [] 2].take n)) ∧
        Recoverable 3 (after 3 closedSegment
          ([interruptedScan [.empty] 1, interruptedScan [] 2].take n)) := by
  refine ⟨closedSegment_fresh, ?_⟩
  refine (crashes_recover_iff 3 closedSegment closedSegment_fresh
    [interruptedScan [.empty] 1, interruptedScan [] 2] ?_).mpr ?_
  · intro trial member
    simp only [mem_cons, not_mem_nil, or_false] at member
    rcases member with rfl | rfl
    all_goals exact interruptedScan_remuxable _ _
  · intro n
    rcases n with _ | _ | m
    · decide +kernel
    · decide +kernel
    · have all : [interruptedScan [.empty] 1, interruptedScan [] 2].length ≤ m + 2 :=
        Nat.le_add_left 2 m
      rw [take_of_length_le all]
      decide +kernel

/-- What `ffmpeg` had written when the process died is taken for the whole video from then on. -/
theorem tornVideo_not_recovered : ¬∀ maxAttempts seg, Fresh seg → ∀ trials : List Trial,
    (∀ trial ∈ trials, trial.Remuxable) → ∀ n, Safe (after maxAttempts seg (trials.take n)) ∧
      Recoverable maxAttempts (after maxAttempts seg (trials.take n)) := by
  intro always
  obtain ⟨-, recoverable⟩ := always 3 closedSegment closedSegment_fresh
    [interruptedScan [.torn] 1] (fun trial member => by
      rw [mem_singleton.mp member]
      exact interruptedScan_remuxable _ _) 1
  have recovered := recoverable .scan (fun _ => goodOracle) fun _ => goodOracle_remuxable
  exact absurd recovered.row (by decide +kernel)

end DracVms.SegmentRemux
