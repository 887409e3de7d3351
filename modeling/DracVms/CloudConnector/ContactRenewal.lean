import DracVms.CloudConnector.Heartbeat

namespace DracVms.ContactRenewal

open CommercialPolicy
open Heartbeat
open StatusCaps
open VencimentoDeLicenca

variable {runtime : Runtime}

/-- The installation after a history of heartbeats. -/
def after (start : Installation) (history : List (Attempt runtime)) : Installation :=
  history.foldl syncHeartbeat start

/-- The heartbeat stores its contact and the status, and nothing that follows throws. -/
def succeeds (outcomes : Outcomes) : Bool :=
  outcomes.written .lastSyncAt && outcomes.written .licenseStatus &&
    outcomes.applyStatusWritten && outcomes.applyErrorWritten && outcomes.revisionWritten &&
    !outcomes.laterThrows

/-- A successful heartbeat. -/
structure Contact (runtime : Runtime) where
  response : Response runtime
  outcomes : Outcomes
  synced : succeeds outcomes = true

def Contact.attempt (contact : Contact runtime) : Attempt runtime :=
  .answered contact.response contact.outcomes

/-- The decision that a read of the policy takes right after the heartbeat. -/
def decision (before : Installation) (contact : Contact runtime) (agoraMs : ℤ) : Policy :=
  getPolicy runtime (syncHeartbeat before contact.attempt).policy agoraMs

/-- The silence imposes nothing, and the state is the one that the Central sent. -/
def Renewed (before : Installation) (contact : Contact runtime) (agoraMs : ℤ) : Prop :=
  (decision before contact agoraMs).diasSemContato = some 0 ∧
    (decision before contact agoraMs).licenseStatus = normalizeStatus contact.response.licenseStatus

/-- Neither the clock nor the greatest instant seen is a day ahead of the contact. -/
structure Timely (before : Installation) (contact : Contact runtime) (agoraMs : ℤ) : Prop where
  positive : 0 < contact.outcomes.contactAt
  clock : agoraMs < contact.outcomes.contactAt + diaMs
  marked : (contact.outcomes.marking.writes before.policy.maiorInstanteVisto &&
      contact.outcomes.marking.written) = true →
    contact.outcomes.marking.agora < contact.outcomes.contactAt + diaMs
  kept : (contact.outcomes.marking.writes before.policy.maiorInstanteVisto &&
      contact.outcomes.marking.written) = false →
    before.policy.maiorInstanteVisto.getD 0 < contact.outcomes.contactAt + diaMs

theorem contact_policy (before : Installation) (contact : Contact runtime) :
    (syncHeartbeat before contact.attempt).policy =
      (writeSettings before contact.response contact.outcomes).policy := by
  have synced := contact.synced
  simp only [succeeds, Bool.and_eq_true, Bool.not_eq_true'] at synced
  obtain ⟨⟨⟨_, status⟩, error⟩, revision⟩ := synced.1
  have quiet : (recordThrows contact.outcomes
      (applyThrows before contact.response contact.outcomes) ||
      contact.outcomes.laterThrows) = false := by
    simp [recordThrows, status, error, revision, synced.2]
  simp only [Contact.attempt, syncHeartbeat, quiet]
  rfl

theorem contact_settings (before : Installation) (contact : Contact runtime) :
    (syncHeartbeat before contact.attempt).policy.lastSyncAt =
        some contact.outcomes.contactAt ∧
      (syncHeartbeat before contact.attempt).policy.licenseStatus =
        some (statusName (normalizeStatus contact.response.licenseStatus)) ∧
      (syncHeartbeat before contact.attempt).policy.maiorInstanteVisto =
        marcarInstante before.policy.maiorInstanteVisto contact.outcomes.marking := by
  have synced := contact.synced
  simp only [succeeds, Bool.and_eq_true, Bool.not_eq_true'] at synced
  obtain ⟨⟨⟨⟨sync, status⟩, _⟩, _⟩, _⟩ := synced.1
  rw [contact_policy]
  simp only [writeSettings, put, sync, status, if_true, and_self]

/-- The days that count after a contact, in whole days. -/
theorem floor_dias_iff {ultimo : ℤ} (positive : 0 < ultimo) (agoraMs : ℤ) (maior : Option ℤ) :
    (diasSemContato (some ultimo) agoraMs maior).map (fun dias => ⌊dias⌋) = some 0 ↔
      agoraQueConta ultimo agoraMs maior < ultimo + diaMs := by
  have elapsed := agoraQueConta_ge ultimo agoraMs maior
  have day : (0 : ℚ) < (diaMs : ℚ) := by norm_num [diaMs]
  have nonneg : (0 : ℚ) ≤ ((agoraQueConta ultimo agoraMs maior - ultimo : ℤ) : ℚ) := by
    exact_mod_cast Int.sub_nonneg.mpr elapsed
  rw [diasSemContato_of_contact positive, Option.map_some, Option.some.injEq, Int.floor_eq_zero_iff,
    Set.mem_Ico]
  constructor
  · intro within
    have short := (div_lt_one day).mp within.2
    have cast : agoraQueConta ultimo agoraMs maior - ultimo < diaMs := by exact_mod_cast short
    omega
  · intro short
    have cast : agoraQueConta ultimo agoraMs maior - ultimo < diaMs := by omega
    refine ⟨div_nonneg nonneg day.le, (div_lt_one day).mpr ?_⟩
    exact_mod_cast cast

theorem estadoPorSilencio_of_floor {dias : Option ℚ} (zero : dias.map (fun d => ⌊d⌋) = some 0) :
    estadoPorSilencio dias = .active := by
  cases dias with
  | none => cases zero
  | some d =>
    have whole : ⌊d⌋ = 0 := Option.some.inj zero
    have below := Int.lt_floor_add_one d
    rw [whole] at below
    have short : ¬diasAteSuspender ≤ d := by
      intro long
      norm_num [diasAteSuspender] at long below
      linarith
    have shorter : ¬diasAteRestringir ≤ d := by
      intro long
      norm_num [diasAteRestringir] at long below
      linarith
    simp only [estadoPorSilencio, if_neg short, if_neg shorter]

theorem agoraQueConta_lt {ultimo agoraMs : ℤ} (maior : Option ℤ) :
    agoraQueConta ultimo agoraMs maior < ultimo + diaMs ↔
      agoraMs < ultimo + diaMs ∧ maior.getD 0 < ultimo + diaMs := by
  have day : ultimo < ultimo + diaMs := by
    simp only [diaMs]
    omega
  simp only [agoraQueConta, max_lt_iff, day, and_true]

theorem renewed_iff (before : Installation) (contact : Contact runtime) (agoraMs : ℤ) :
    Renewed before contact agoraMs ↔ Timely before contact agoraMs := by
  obtain ⟨sync, status, mark⟩ := contact_settings before contact
  have days : (decision before contact agoraMs).diasSemContato =
      (diasSemContato (some contact.outcomes.contactAt) agoraMs
        (marcarInstante before.policy.maiorInstanteVisto
          contact.outcomes.marking)).map fun dias => ⌊dias⌋ := by
    rw [decision, getPolicy, decidirLicenca, sync, mark]
  have estado : (decision before contact agoraMs).licenseStatus =
      combinarEstados (normalizeStatus contact.response.licenseStatus)
        (estadoPorSilencio (diasSemContato (some contact.outcomes.contactAt) agoraMs
          (marcarInstante before.policy.maiorInstanteVisto contact.outcomes.marking))) := by
    rw [decision, getPolicy, decidirLicenca, sync, mark, status, normalizeStatus_name]
  rw [Renewed, days, estado]
  constructor
  · intro renewed
    by_cases positive : 0 < contact.outcomes.contactAt
    · have short := (agoraQueConta_lt _).mp ((floor_dias_iff positive _ _).mp renewed.1)
      refine ⟨positive, short.1, ?_, ?_⟩
      · intro writes
        have second := short.2
        rw [marcarInstante, if_pos writes] at second
        exact second
      · intro keeps
        have second := short.2
        rw [marcarInstante, if_neg (by rw [keeps]; decide)] at second
        exact second
    · have never := renewed.1
      rw [diasSemContato_of_none (not_lt.mp positive)] at never
      cases never
  · intro timely
    have mark' : (marcarInstante before.policy.maiorInstanteVisto
        contact.outcomes.marking).getD 0 < contact.outcomes.contactAt + diaMs := by
      unfold marcarInstante
      split
      · rename_i writes
        exact timely.marked writes
      · rename_i keeps
        exact timely.kept (Bool.eq_false_iff.mpr keeps)
    have zero := (floor_dias_iff timely.positive agoraMs _).mpr
      ((agoraQueConta_lt _).mpr ⟨timely.clock, mark'⟩)
    exact ⟨zero, by rw [estadoPorSilencio_of_floor zero, combinarEstados_active]⟩

/-- After any history, a contact renews the license exactly when no stored or read instant is a day
ahead of it. -/
theorem contact_renews_iff (start : Installation) (history : List (Attempt runtime))
    (contact : Contact runtime) (agoraMs : ℤ) : Renewed (after start history) contact agoraMs ↔
      Timely (after start history) contact agoraMs :=
  renewed_iff (after start history) contact agoraMs

/-! A clock that was three weeks ahead once. -/

def ungoverned : RestrictionMap oneDigitRuntime where
  fields := []
  live := ⟨List.nodup_nil, rfl, trivial⟩

def activeLicense : Response oneDigitRuntime where
  licenseStatus := some (statusName .active)
  licenseMessage := []
  restrictions := ungoverned
  maxCameras := []
  maxUsers := []
  maxRetentionDays := []
  vpn := []
  cloudStorage := []
  cloudStorageState := []
  cloudStorageRemovals := []
  branding := none
  configRevision := 0

/-- Everything goes well, and the clock reads the same all the while. -/
def smooth (agora : ℤ) : Outcomes where
  settingsRead := true
  summary := []
  contactAt := agora
  written _ := true
  marking := ⟨agora, true, true⟩
  branding := true
  stopRecordings := true
  stopAi := true
  downgradeAi := .done
  applyError := []
  applyStatusWritten := true
  applyErrorWritten := true
  revisionWritten := true
  laterThrows := false
  failure := ⟨[], true, ⟨agora, true, true⟩⟩

def smoothContact (agora : ℤ) : Contact oneDigitRuntime where
  response := activeLicense
  outcomes := smooth agora
  synced := rfl

def newInstallation : Installation where
  policy := { inTouch with lastSyncAt := none }
  vpn := none
  lastPayloadSummary := none
  storage := none
  storageState := none
  storageRemovals := none
  appliedConfigRevision := none
  configApplyStatus := none
  configApplyError := none

/-- Read at the very instant of the contact, the license is suspended for silence. -/
theorem corrected_clock_suspends :
    ¬ ∀ (runtime : Runtime) (start : Installation) (history : List (Attempt runtime))
      (contact : Contact runtime),
      Renewed (after start history) contact contact.outcomes.contactAt := by
  intro always
  have renewed := always oneDigitRuntime newInstallation [(smoothContact (30 * diaMs)).attempt]
    (smoothContact (9 * diaMs))
  have timely := (renewed_iff _ _ _).mp renewed
  have ahead := timely.kept (by decide +kernel)
  exact absurd ahead (by decide +kernel)

end DracVms.ContactRenewal
