import DracVms.Database.Schema
import DracVms.Library.Where

namespace DracVms.Retention

open Json Where

def dayMs : Int := 86400000

/-- The activity of a segment was never measured. -/
def motionScoreUnknown : Int := -1

structure TwoTierPolicy where
  enabled : Bool
  dryRun : Bool
  allDays : Int
  motionDays : Int

structure RetentionWindow where
  allDays : Int
  motionDays : Int

/-- A row of `Recording`, with the columns that the expiry reads. -/
structure ExpiringRecording where
  id : Text
  cameraId : Text
  filePath : Text
  startedAt : Int
  sizeBytes : Option Int
  cloudKey : Option Text
  cloudStorageId : Option Text
  motionScore : Option Int

inductive CameraFilter where
  | every
  | oneOf (cameraIds : List Text)
  | noneOf (cameraIds : List Text)

def CameraFilter.condition : CameraFilter → Condition ExpiringRecording
  | .every => all []
  | .oneOf cameraIds => compare (fun row => some row.cameraId) (· ∈ cameraIds)
  | .noneOf cameraIds => compare (fun row => some row.cameraId) (· ∉ cameraIds)

/-- The cameras that keep their recordings for the same number of days. -/
structure RetentionGroup where
  days : Int
  filter : CameraFilter

/-- With the policy off, the two cut-offs are the one that the camera has always had. -/
def resolveRetentionWindow (baseDays : Int) (policy : TwoTierPolicy) : RetentionWindow :=
  if !policy.enabled then ⟨baseDays, baseDays⟩
  else
    let allDays := if 0 < policy.allDays then policy.allDays else baseDays
    let motionDays := if 0 < policy.motionDays then policy.motionDays else baseDays
    ⟨allDays, max allDays motionDays⟩

def readMotionScore : Option Int → Int
  | none => motionScoreUnknown
  | some raw => if raw < 0 then motionScoreUnknown else raw

/-- The rule, for a recording of this start and this activity. -/
def isExpiredByAge (startedAt motionScore now : Int) (window : RetentionWindow) : Bool :=
  let ageMs := now - startedAt
  if window.motionDays * dayMs < ageMs then true
  else if ageMs ≤ window.allDays * dayMs then false
  else decide (motionScore = 0)

section Queries

variable (motionScoreSupported : Bool)

/-- The score of a row as it is read: a client from before the column does not select it. -/
def scoreRead (row : ExpiringRecording) : Option Int :=
  if motionScoreSupported then row.motionScore else none

def startedBefore (now days : Int) : Condition ExpiringRecording :=
  compare (fun row => some row.startedAt) (· < now - days * dayMs)

def startedSince (now days : Int) : Condition ExpiringRecording :=
  compare (fun row => some row.startedAt) (now - days * dayMs ≤ ·)

def withoutMotion : Condition ExpiringRecording :=
  compare ExpiringRecording.motionScore (· = 0)

/-- The same rule, for the database. -/
def buildExpiryWhere (group : RetentionGroup) (window : RetentionWindow) (now : Int) :
    Condition ExpiringRecording :=
  if window.allDays < window.motionDays then
    if !motionScoreSupported then
      all [group.filter.condition, startedBefore now window.motionDays]
    else
      all [group.filter.condition, startedBefore now window.allDays,
        any [startedBefore now window.motionDays, withoutMotion]]
  else all [group.filter.condition, startedBefore now window.allDays]

/-- What `motionRetained` counts: past the short cut-off, and kept for its motion. -/
def motionRetainedWhere (group : RetentionGroup) (window : RetentionWindow) (now : Int) :
    Condition ExpiringRecording :=
  all ([group.filter.condition, startedBefore now window.allDays,
    startedSince now window.motionDays] ++ if motionScoreSupported then [negate withoutMotion] else [])

end Queries

theorem resolveRetentionWindow_ordered (baseDays : Int) (policy : TwoTierPolicy) :
    (resolveRetentionWindow baseDays policy).allDays ≤
      (resolveRetentionWindow baseDays policy).motionDays := by
  unfold resolveRetentionWindow
  split
  · exact Int.le_refl baseDays
  · exact Int.le_max_left _ _

theorem readMotionScore_zero (score : Option Int) : readMotionScore score = 0 ↔ score = some 0 := by
  cases score with
  | none => simp [readMotionScore, motionScoreUnknown]
  | some raw =>
    unfold readMotionScore motionScoreUnknown
    dsimp only
    split
    · simp only [Option.some.injEq]
      omega
    · simp

theorem isExpiredByAge_iff (startedAt motionScore now : Int) (window : RetentionWindow) :
    isExpiredByAge startedAt motionScore now window = true ↔
      startedAt < now - window.motionDays * dayMs ∨
        (startedAt < now - window.allDays * dayMs ∧ motionScore = 0) := by
  unfold isExpiredByAge
  dsimp only
  split
  · simp only [true_iff]
    omega
  · split
    · simp only [Bool.false_eq_true, false_iff]
      omega
    · rw [decide_eq_true_iff]
      omega

theorem selects_startedBefore (now days : Int) (row : ExpiringRecording) :
    Selects (startedBefore now days) row ↔ row.startedAt < now - days * dayMs := by
  simp [startedBefore]

theorem selects_startedSince (now days : Int) (row : ExpiringRecording) :
    Selects (startedSince now days) row ↔ now - days * dayMs ≤ row.startedAt := by
  simp [startedSince]

theorem selects_withoutMotion (row : ExpiringRecording) :
    Selects withoutMotion row ↔ row.motionScore = some 0 := by
  simp [withoutMotion]

theorem refutes_withoutMotion (row : ExpiringRecording) :
    Refutes withoutMotion row ↔ row.motionScore ≠ none ∧ row.motionScore ≠ some 0 := by
  cases score : row.motionScore with
  | none | some value => simp [withoutMotion, score]

section Ordered

variable (motionScoreSupported : Bool) (group : RetentionGroup) (window : RetentionWindow)
  (now : Int) (row : ExpiringRecording)

theorem window_scaled (ordered : window.allDays ≤ window.motionDays) :
    window.allDays * dayMs ≤ window.motionDays * dayMs :=
  Int.mul_le_mul_of_nonneg_right ordered (by decide)

theorem buildExpiryWhere_iff (ordered : window.allDays ≤ window.motionDays) :
    Selects (buildExpiryWhere motionScoreSupported group window now) row ↔
      Selects group.filter.condition row ∧
        isExpiredByAge row.startedAt (readMotionScore (scoreRead motionScoreSupported row)) now
          window = true := by
  have scaled := window_scaled window ordered
  rw [isExpiredByAge_iff, readMotionScore_zero]
  unfold buildExpiryWhere
  by_cases tiers : window.allDays < window.motionDays
  · rw [if_pos tiers]
    cases motionScoreSupported with
    | false =>
      simp only [scoreRead, Bool.not_false, if_true, selects_all_cons, selects_all_nil, and_true,
        selects_startedBefore, Bool.false_eq_true, if_false, reduceCtorEq, and_false, or_false]
    | true =>
      simp only [scoreRead, Bool.not_true, Bool.false_eq_true, if_false, if_true,
        selects_all_cons, selects_all_nil, and_true, selects_any_cons, selects_any_nil, or_false,
        selects_startedBefore, selects_withoutMotion]
      apply and_congr_right
      intro _
      constructor
      · rintro ⟨older, oldest | still⟩
        · exact Or.inl oldest
        · exact Or.inr ⟨older, still⟩
      · rintro (oldest | ⟨older, still⟩)
        · exact ⟨by omega, Or.inl oldest⟩
        · exact ⟨older, Or.inr still⟩
  · have same : window.allDays = window.motionDays := by omega
    rw [if_neg tiers]
    simp only [selects_all_cons, selects_all_nil, and_true, selects_startedBefore, same]
    apply and_congr_right
    intro _
    constructor
    · intro older
      exact Or.inl older
    · rintro (older | ⟨older, -⟩)
      all_goals exact older

theorem motionRetainedWhere_iff :
    Selects (motionRetainedWhere motionScoreSupported group window now) row ↔
      Selects group.filter.condition row ∧ row.startedAt < now - window.allDays * dayMs ∧
        now - window.motionDays * dayMs ≤ row.startedAt ∧
        (motionScoreSupported = true → row.motionScore ≠ none ∧ row.motionScore ≠ some 0) := by
  unfold motionRetainedWhere
  cases motionScoreSupported with
  | false =>
    simp only [Bool.false_eq_true, if_false, List.append_nil, selects_all_cons, selects_all_nil,
      selects_startedBefore, selects_startedSince, false_imp_iff]
  | true =>
    simp only [if_true, List.cons_append, List.nil_append, selects_all_cons, selects_all_nil,
      selects_startedBefore, selects_startedSince, selects_negate, refutes_withoutMotion,
      and_true, true_imp_iff]

end Ordered

/-- The filter is the rule for every score, null or not. Past the short cut-off a recording is either
expired or counted as retained, never both, where the column holds a score, as its `NOT NULL` says. -/
theorem expiry_filter_is_the_rule (motionScoreSupported : Bool) (group : RetentionGroup)
    (baseDays : Int) (policy : TwoTierPolicy) (now : Int) (row : ExpiringRecording) :
    let window := resolveRetentionWindow baseDays policy
    let expired := Selects (buildExpiryWhere motionScoreSupported group window now) row
    let retained := Selects (motionRetainedWhere motionScoreSupported group window now) row
    (expired ↔ Selects group.filter.condition row ∧
      isExpiredByAge row.startedAt (readMotionScore (scoreRead motionScoreSupported row)) now
        window = true) ∧
    ¬(expired ∧ retained) ∧
    ((motionScoreSupported = true → row.motionScore ≠ none) →
      (Selects (all [group.filter.condition, startedBefore now window.allDays]) row ↔
        expired ∨ retained)) := by
  intro window expired retained
  have ordered := resolveRetentionWindow_ordered baseDays policy
  have scaled := window_scaled window ordered
  have rule : expired ↔ _ := buildExpiryWhere_iff motionScoreSupported group window now row ordered
  have kept : retained ↔ _ := motionRetainedWhere_iff motionScoreSupported group window now row
  refine ⟨rule, ?_, ?_⟩
  · rintro ⟨out, stays⟩
    rw [rule, isExpiredByAge_iff, readMotionScore_zero] at out
    obtain ⟨-, -, young, moved⟩ := kept.mp stays
    rcases out.2 with oldest | ⟨-, still⟩
    · omega
    · cases motionScoreSupported with
      | false => cases still
      | true => exact (moved rfl).2 still
  · intro scored
    rw [rule, kept, isExpiredByAge_iff, readMotionScore_zero]
    simp only [selects_all_cons, selects_all_nil, and_true, selects_startedBefore]
    constructor
    · rintro ⟨inGroup, older⟩
      by_cases oldest : row.startedAt < now - window.motionDays * dayMs
      · exact Or.inl ⟨inGroup, Or.inl oldest⟩
      · by_cases still : scoreRead motionScoreSupported row = some 0
        · exact Or.inl ⟨inGroup, Or.inr ⟨older, still⟩⟩
        · refine Or.inr ⟨inGroup, older, by omega, ?_⟩
          intro supported
          rw [scoreRead, if_pos supported] at still
          exact ⟨scored supported, still⟩
    · rintro (⟨inGroup, oldest | ⟨older, -⟩⟩ | ⟨inGroup, older, -⟩)
      · exact ⟨inGroup, by omega⟩
      all_goals exact ⟨inGroup, older⟩

def unscored : ExpiringRecording := ⟨['r'], ['c'], ['f'], -3 * dayMs, none, none, none, none⟩

def twoTiers : TwoTierPolicy := ⟨true, false, 2, 10⟩

theorem expiry_filter_is_the_rule_scored :
    Selects (all [CameraFilter.every.condition, startedBefore 0 2])
        { unscored with motionScore := some 4 } ↔
      Selects (buildExpiryWhere true ⟨7, .every⟩ (resolveRetentionWindow 7 twoTiers) 0)
          { unscored with motionScore := some 4 } ∨
        Selects (motionRetainedWhere true ⟨7, .every⟩ (resolveRetentionWindow 7 twoTiers) 0)
          { unscored with motionScore := some 4 } :=
  (expiry_filter_is_the_rule true ⟨7, .every⟩ 7 twoTiers 0
    { unscored with motionScore := some 4 }).2.2 (fun _ => nofun)

/-- A null score, which the column excludes, would be neither expired nor counted. -/
theorem null_score_not_counted :
    Selects (all [CameraFilter.every.condition, startedBefore 0 2]) unscored ∧
      ¬Selects (buildExpiryWhere true ⟨7, .every⟩ (resolveRetentionWindow 7 twoTiers) 0) unscored ∧
      ¬Selects (motionRetainedWhere true ⟨7, .every⟩ (resolveRetentionWindow 7 twoTiers) 0)
        unscored := by
  decide

end DracVms.Retention
