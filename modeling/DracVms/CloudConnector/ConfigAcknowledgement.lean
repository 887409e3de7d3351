import DracVms.CloudConnector.ContactRenewal

namespace DracVms.ConfigAcknowledgement

open CommercialPolicy
open ContactRenewal
open Heartbeat
open StatusCaps
open VencimentoDeLicenca

section Acknowledgement

variable {runtime : Runtime} (installation : Installation) (response : Response runtime)
  (outcomes : Outcomes)

/-- Whatever the restrictions ask for has been stopped or downgraded. -/
structure Enforced : Prop where
  recordings : mustStopRecordings (enforced response) = true → outcomes.stopRecordings = true
  ai : mustStopEverything (enforced response) = true → outcomes.stopAi = true
  downgrade : mustDowngrade (enforced response) = true → outcomes.downgradeAi = .done

/-- The branding of the response has been applied, now or when its revision was recorded. -/
def BrandingDone : Prop :=
  response.branding.isSome = true →
    if shouldApplyDesiredConfig installation outcomes.settingsRead response then
      outcomes.branding = true
    else installation.appliedConfigRevision = some response.configRevision

structure EveryStep : Prop where
  written : writesThrow installation outcomes = false
  branding : BrandingDone installation response outcomes
  enforced : Enforced response outcomes

/-- The heartbeat writes the revision of the response as the applied one. -/
def recordsApplied : Bool :=
  !applyThrows installation response outcomes && outcomes.revisionWritten

/-- The installation after the heartbeat. -/
def next : Installation := syncHeartbeat installation (.answered response outcomes)

/-- The revision is recorded only when every step has succeeded; after a step that failed, the next
heartbeat with this revision takes the whole configuration for due. -/
structure Honest : Prop where
  recorded : recordsApplied installation response outcomes = true →
    EveryStep installation response outcomes
  retried : ¬EveryStep installation response outcomes → ∀ later : Response runtime,
    later.configRevision = response.configRevision →
      shouldApplyDesiredConfig (next installation response outcomes) true later = true

/-- The revision is above the recorded one. -/
def Above : Prop := installation.appliedConfigRevision.getD 0 < response.configRevision

def WasFailed : Prop := installation.configApplyStatus = some failed

/-- The steps that can throw have failed and this can be seen later; or every other step succeeds
too; or the revision is not recorded and stays due. -/
def Acknowledges : Prop :=
  if applyThrows installation response outcomes then
    Above installation response ∨ WasFailed installation ∨ outcomes.applyStatusWritten = true
  else
    (BrandingDone installation response outcomes ∧ Enforced response outcomes) ∨
      outcomes.revisionWritten = false ∧
        (Above installation response ∨ WasFailed installation ∧ outcomes.applyStatusWritten = false)

end Acknowledgement

variable {runtime : Runtime} {installation : Installation} {response : Response runtime}
  {outcomes : Outcomes}

theorem applied_ne_failed : applied ≠ failed := by decide

/-- Only the last records of a heartbeat change what it reports of the configuration. -/
theorem next_config : (next installation response outcomes).appliedConfigRevision =
        (recordApplied (writeSettings installation response outcomes) response outcomes
          (applyThrows installation response outcomes)).appliedConfigRevision ∧
      (next installation response outcomes).configApplyStatus =
        (recordApplied (writeSettings installation response outcomes) response outcomes
          (applyThrows installation response outcomes)).configApplyStatus := by
  simp only [next, syncHeartbeat, catchFailure]
  split
  · split <;> exact ⟨rfl, rfl⟩
  · exact ⟨rfl, rfl⟩

theorem next_revision : (next installation response outcomes).appliedConfigRevision =
      if recordsApplied installation response outcomes then some response.configRevision
      else installation.appliedConfigRevision := by
  rw [next_config.1]
  rfl

theorem next_status : (next installation response outcomes).configApplyStatus =
      if outcomes.applyStatusWritten then
        some (if applyThrows installation response outcomes then failed else applied)
      else installation.configApplyStatus := by
  rw [next_config.2]
  rfl

/-- What a later heartbeat that can read its settings takes for due. -/
theorem shouldApply_iff (later : Response runtime) :
    shouldApplyDesiredConfig installation true later = true ↔
      Above installation later ∨ WasFailed installation := by
  simp only [shouldApplyDesiredConfig, appliedRevision, reportsFailed, Above, WasFailed, if_true,
    Bool.true_and, Bool.or_eq_true, decide_eq_true_eq]

theorem everyStep_of_throws (throws : applyThrows installation response outcomes = true) :
    ¬EveryStep installation response outcomes := by
  intro every
  rw [applyThrows, every.written, Bool.false_or, Bool.and_eq_true, appliesBranding,
    Bool.and_eq_true, Bool.not_eq_true'] at throws
  have done := every.branding throws.1.1
  rw [if_pos throws.1.2, throws.2] at done
  cases done

theorem everyStep_iff (quiet : applyThrows installation response outcomes = false) :
    EveryStep installation response outcomes ↔
      BrandingDone installation response outcomes ∧ Enforced response outcomes := by
  rw [applyThrows, Bool.or_eq_false_iff] at quiet
  exact ⟨fun every => ⟨every.branding, every.enforced⟩, fun both => ⟨quiet.1, both.1, both.2⟩⟩

/-- Whether a revision is due depends on what the heartbeat has left in the settings. -/
theorem retried_iff : (∀ later : Response runtime, later.configRevision = response.configRevision →
      shouldApplyDesiredConfig (next installation response outcomes) true later = true) ↔
      (next installation response outcomes).appliedConfigRevision.getD 0 <
          response.configRevision ∨
        (next installation response outcomes).configApplyStatus = some failed := by
  constructor
  · intro always
    exact (shouldApply_iff response).mp (always response rfl)
  · intro due later same
    apply (shouldApply_iff later).mpr
    rw [Above, same]
    exact due

/-- A heartbeat acknowledges honestly exactly under this condition on its outcomes. -/
theorem acknowledgement_iff (installation : Installation) (response : Response runtime)
    (outcomes : Outcomes) :
    Honest installation response outcomes ↔ Acknowledges installation response outcomes := by
  unfold Acknowledges
  cases throws : applyThrows installation response outcomes with
  | true =>
    have failure := everyStep_of_throws throws
    have unrecorded : recordsApplied installation response outcomes = false := by
      rw [recordsApplied, throws]
      rfl
    rw [if_pos rfl]
    constructor
    · intro honest
      have due := retried_iff.mp (honest.retried failure)
      rw [next_revision, unrecorded, next_status, throws] at due
      rcases due with above | marked
      · exact Or.inl above
      · by_cases written : outcomes.applyStatusWritten = true
        · exact Or.inr (Or.inr written)
        · rw [if_neg written] at marked
          exact Or.inr (Or.inl marked)
    · intro due
      refine ⟨fun recorded => absurd recorded (by rw [unrecorded]; decide), fun _ => ?_⟩
      apply retried_iff.mpr
      rw [next_revision, unrecorded, next_status, throws]
      rcases due with above | marked | written
      · exact Or.inl above
      · right
        split
        · rfl
        · exact marked
      · exact Or.inr (if_pos written)
  | false =>
    have every := everyStep_iff throws
    have records : recordsApplied installation response outcomes = outcomes.revisionWritten := by
      rw [recordsApplied, throws]
      rfl
    rw [if_neg (by decide)]
    constructor
    · intro honest
      by_cases done : EveryStep installation response outcomes
      · exact Or.inl (every.mp done)
      · right
        have unwritten : outcomes.revisionWritten = false := by
          rw [← records]
          exact Bool.eq_false_iff.mpr fun recorded => done (honest.recorded recorded)
        refine ⟨unwritten, ?_⟩
        have due := retried_iff.mp (honest.retried done)
        rw [next_revision, records, unwritten, next_status, throws] at due
        rcases due with above | marked
        · exact Or.inl above
        · by_cases written : outcomes.applyStatusWritten = true
          · rw [if_pos written] at marked
            exact absurd (Option.some.inj marked) applied_ne_failed
          · rw [if_neg written] at marked
            exact Or.inr ⟨marked, Bool.eq_false_iff.mpr written⟩
    · intro due
      rcases due with done | ⟨unwritten, due⟩
      · have all := every.mpr done
        exact ⟨fun _ => all, fun failure => absurd all failure⟩
      · refine ⟨fun recorded => absurd recorded (by rw [records, unwritten]; decide), fun _ => ?_⟩
        apply retried_iff.mpr
        rw [next_revision, records, unwritten, next_status]
        rcases due with above | ⟨marked, written⟩
        · exact Or.inl above
        · rw [written]
          exact Or.inr marked

/-! The recordings cannot be stopped. -/

def withoutRecording : Response oneDigitRuntime :=
  { activeLicense with
    licenseStatus := some (statusName .suspended)
    configRevision := 7 }

def stuckRecordings : Outcomes := { smooth diaMs with stopRecordings := false }

/-- Revision 7 suspends the installation, the recordings go on, and the revision counts as
applied. -/
theorem stuck_recordings_applied :
    ¬ ∀ (runtime : Runtime) (installation : Installation) (response : Response runtime)
      (outcomes : Outcomes), Honest installation response outcomes := by
  intro always
  have honest := always oneDigitRuntime newInstallation withoutRecording stuckRecordings
  have every := honest.recorded (by decide +kernel)
  have stopped := every.enforced.recordings (by decide +kernel)
  cases stopped

end DracVms.ConfigAcknowledgement
