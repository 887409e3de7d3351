import DracVms.CommercialPolicy.CommercialPolicyService

namespace DracVms.StatusCaps

open List CommercialPolicy
open CommercialPolicy.Restriction
open Json (Text Value Scalar buildFields field parse stringify)
open VencimentoDeLicenca

variable (runtime : Runtime)

/-- What the connector sets to false before it stores the map. -/
def caps : EstadoDaLicenca → List Restriction
  | .suspended => [localLive, localRecording, addCameras, aiAdvanced, cloudSupport, updates]
  | .restricted => [addCameras, aiAdvanced, updates]
  | _ => []

def denial : Json runtime := .atom (.bool false)

/-- `{ ...restrictions, localLive: false, … }` -/
def applyStatusCaps (status : EstadoDaLicenca) (restrictions : List (Text × Json runtime)) :
    List (Text × Json runtime) :=
  match status with
  | .suspended | .restricted =>
    buildFields (restrictions ++ (caps status).map fun key => (key.name, denial runtime))
  | _ => restrictions

/-- A map of restrictions as it comes out of a response of the Central. -/
structure RestrictionMap where
  fields : List (Text × Json runtime)
  live : (Value.object fields).IsLive

variable {runtime}

def RestrictionMap.denies (sent : RestrictionMap runtime) (key : Restriction) : Prop :=
  field sent.fields key.name = some (denial runtime)

/-- The settings after a heartbeat whose response brought this status and this map. -/
def stores (settings : Settings) (status : EstadoDaLicenca) (sent : RestrictionMap runtime) :
    Settings :=
  { settings with
    licenseStatus := some (statusName status)
    restrictions := some (stringify (leaves runtime) (.object (applyStatusCaps runtime status
      sent.fields))) }

/-- The connector itself lets a recording, a camera and so on through. -/
def connectorAllows (status : EstadoDaLicenca) (sent : RestrictionMap runtime)
    (key : Restriction) : Prop :=
  field (applyStatusCaps runtime status sent.fields) key.name ≠ some (denial runtime)

/-- The tables of the two services cut the same keys. -/
theorem statusDefaults_iff (key : Restriction) :
    (statusDefaults .suspended key = false ↔ key ∈ caps .suspended) ∧
      (statusDefaults .restricted key = false ↔ key ∈ caps .restricted) := by
  cases key <;> decide

theorem caps_mono (key : Restriction) (cut : key ∈ caps .restricted) : key ∈ caps .suspended := by
  revert cut
  cases key <;> decide

variable (status : EstadoDaLicenca)

theorem caps_field (key : Restriction) :
    field ((caps status).map fun cut => (cut.name, denial runtime)) key.name =
      if key ∈ caps status then some (denial runtime) else none := by
  unfold field
  rw [List.find?_map]
  by_cases cut : key ∈ caps status
  · rw [if_pos cut]
    cases found : (caps status).find? _ with
    | none =>
      have absent := List.find?_eq_none.mp found key cut
      exact absurd (decide_eq_true rfl) absent
    | some other => rfl
  · rw [if_neg cut]
    rw [List.find?_eq_none.mpr]
    · rfl
    · intro other member
      rw [Function.comp_apply, decide_eq_true_eq]
      intro same
      exact cut (name_injective same ▸ member)

variable (sent : RestrictionMap runtime)

theorem applyStatusCaps_live :
    (Value.object (applyStatusCaps runtime status sent.fields)).IsLive := by
  have whole : Json.fieldsLive
      (sent.fields ++ (caps status).map fun key => (key.name, denial runtime)) := by
    apply (Json.fieldsLive_append _ _).mpr
    refine ⟨sent.live.2.2, (Json.fieldsLive_iff _).mpr ?_⟩
    intro entry member
    obtain ⟨key, _, same⟩ := mem_map.mp member
    rw [← same]
    exact trivial
  cases status with
  | unknown | active | grace => exact sent.live
  | restricted | suspended => exact Json.buildFields_live _ whole

theorem applyStatusCaps_field (key : Restriction) :
    field (applyStatusCaps runtime status sent.fields) key.name =
      if key ∈ caps status then some (denial runtime) else field sent.fields key.name := by
  have distinct : (((caps status).map fun cut => (cut.name, denial runtime)).map
      Prod.fst).Nodup := by
    rw [map_map]
    apply List.Nodup.map name_injective
    cases status <;> decide
  have spread := Json.field_buildFields_append sent.fields
    ((caps status).map fun cut => (cut.name, denial runtime)) key.name sent.live.1 distinct
  rw [caps_field] at spread
  cases status with
  | unknown | active | grace => exact (if_neg not_mem_nil).symm
  | restricted | suspended =>
    simp only [applyStatusCaps]
    rw [spread]
    split <;> rfl

theorem parseRestrictions_stores (settings : Settings) (status : EstadoDaLicenca)
    (sent : RestrictionMap runtime) (key : Restriction) :
    parseRestrictions runtime (stores settings status sent).restrictions key =
      if key ∈ caps status then some false
      else (field sent.fields key.name).bind (boolean runtime) := by
  have read : parsed runtime (stores settings status sent).restrictions =
      some (.object (applyStatusCaps runtime status sent.fields)) := by
    obtain ⟨c, rest, written, _⟩ := Json.stringify_starts (leaves runtime)
      (.object (applyStatusCaps runtime status sent.fields))
    rw [parsed, stores, Option.filter_some, if_pos, Option.bind_some, Json.parse_stringify]
    · exact applyStatusCaps_live status sent
    · rw [written]
      rfl
  simp only [parseRestrictions, read, knownEntries]
  rw [applyStatusCaps_field]
  split <;> rfl

/-- The silence has lasted so many days; a silence without end has. -/
def reaches (dias : Option ℚ) (bound : ℚ) : Prop :=
  match dias with
  | none => True
  | some d => bound ≤ d

/-- The license is suspended, by the Central or by the silence. -/
def Suspends (status : EstadoDaLicenca) (dias : Option ℚ) : Prop :=
  status = .suspended ∨ reaches dias diasAteSuspender

def Restricts (status : EstadoDaLicenca) (dias : Option ℚ) : Prop :=
  status = .restricted ∨ reaches dias diasAteRestringir

/-- Whatever the Central's map sets to false is cut by the status that counts, if this status has
cuts of its own. -/
def Covered (status : EstadoDaLicenca) (dias : Option ℚ) (sent : RestrictionMap runtime) : Prop :=
  ∀ key, sent.denies key →
    (Suspends status dias → key ∈ caps .suspended) ∧
      (¬Suspends status dias → Restricts status dias → key ∈ caps .restricted)

variable (dias : Option ℚ)

theorem estadoPorSilencio_suspended :
    estadoPorSilencio dias = .suspended ↔ reaches dias diasAteSuspender := by
  cases dias with
  | none => exact ⟨fun _ => trivial, fun _ => rfl⟩
  | some d =>
    simp only [estadoPorSilencio, reaches]
    by_cases long : diasAteSuspender ≤ d
    · simp only [long, if_true]
    · rw [if_neg long]
      split <;> simp [long]

theorem estadoPorSilencio_restricted {dias : Option ℚ} (short : ¬reaches dias diasAteSuspender) :
    estadoPorSilencio dias = .restricted ↔ reaches dias diasAteRestringir := by
  cases dias with
  | none => exact absurd trivial short
  | some d =>
    simp only [estadoPorSilencio, reaches] at short ⊢
    rw [if_neg short]
    by_cases long : diasAteRestringir ≤ d
    · simp only [long, if_true]
    · simp [long]

theorem estadoPorSilencio_cases :
    estadoPorSilencio dias = .suspended ∨ estadoPorSilencio dias = .restricted ∨
      estadoPorSilencio dias = .active := by
  by_cases suspends : reaches dias diasAteSuspender
  · exact Or.inl ((estadoPorSilencio_suspended dias).mpr suspends)
  · cases dias with
    | none => exact absurd trivial suspends
    | some d =>
      simp only [reaches] at suspends
      simp only [estadoPorSilencio, if_neg suspends]
      split
      · exact Or.inr (Or.inl rfl)
      · exact Or.inr (Or.inr rfl)

theorem estado_suspended :
    combinarEstados status (estadoPorSilencio dias) = .suspended ↔ Suspends status dias := by
  rw [Suspends, ← estadoPorSilencio_suspended]
  rcases estadoPorSilencio_cases dias with silence | silence | silence <;> rw [silence] <;>
    cases status <;> decide

theorem estado_restricted {status : EstadoDaLicenca} {dias : Option ℚ}
    (runs : ¬Suspends status dias) :
    combinarEstados status (estadoPorSilencio dias) = .restricted ↔ Restricts status dias := by
  have short : ¬reaches dias diasAteSuspender := fun long => runs (Or.inr long)
  have central : status ≠ .suspended := fun same => runs (Or.inl same)
  rw [Restricts, ← estadoPorSilencio_restricted short]
  rw [← estadoPorSilencio_suspended] at short
  rcases estadoPorSilencio_cases dias with silence | silence | silence
  · exact absurd silence short
  all_goals
    rw [silence]
    revert central
    cases status <;> decide

/-- The days of silence that a read of these settings counts. -/
def silentDays (settings : Settings) (agoraMs : ℤ) : Option ℚ :=
  diasSemContato settings.lastSyncAt agoraMs settings.maiorInstanteVisto

section Effective

variable (settings : Settings) (agoraMs : ℤ) (status : EstadoDaLicenca)
  (sent : RestrictionMap runtime)

theorem policy_estado : (getPolicy runtime (stores settings status sent) agoraMs).licenseStatus =
      combinarEstados status (estadoPorSilencio (silentDays settings agoraMs)) := by
  simp only [getPolicy, decidirLicenca, stores, normalizeStatus_name, silentDays]

theorem policy_merged (key : Restriction) :
    (getPolicy runtime (stores settings status sent) agoraMs).restrictions key =
      mergedRestrictions (parseRestrictions runtime (stores settings status sent).restrictions)
        (getPolicy runtime (stores settings status sent) agoraMs).licenseStatus key := rfl

theorem policy_suspended (suspends : Suspends status (silentDays settings agoraMs))
    (key : Restriction) :
    (getPolicy runtime (stores settings status sent) agoraMs).restrictions key = true ↔
      key ∉ caps .suspended := by
  rw [policy_merged, policy_estado, (estado_suspended _ _).mpr suspends]
  simp only [mergedRestrictions, statusCaps, Option.getD_some]
  rw [← (statusDefaults_iff key).1, Bool.not_eq_false]

theorem policy_restricted (runs : ¬Suspends status (silentDays settings agoraMs))
    (restricts : Restricts status (silentDays settings agoraMs)) (key : Restriction) :
    (getPolicy runtime (stores settings status sent) agoraMs).restrictions key = true ↔
      key ∉ caps .restricted := by
  rw [policy_merged, policy_estado, (estado_restricted runs).mpr restricts]
  simp only [mergedRestrictions, statusCaps, Option.getD_some]
  rw [← (statusDefaults_iff key).2, Bool.not_eq_false]

theorem denies_iff (key : Restriction) :
    sent.denies key ↔ (field sent.fields key.name).bind (boolean runtime) = some false := by
  unfold RestrictionMap.denies denial
  constructor
  · intro denied
    rw [denied]
    rfl
  · intro read
    obtain ⟨value, found, false_⟩ := Option.bind_eq_some_iff.mp read
    rw [found]
    unfold boolean at false_
    split at false_
    · cases false_
      rfl
    · cases false_

theorem policy_calm (runs : ¬Suspends status (silentDays settings agoraMs))
    (free : ¬Restricts status (silentDays settings agoraMs)) (key : Restriction) :
    (getPolicy runtime (stores settings status sent) agoraMs).restrictions key = true ↔
      ¬sent.denies key := by
  have notSuspended := mt (estado_suspended _ _).mp runs
  have notRestricted := mt (estado_restricted runs).mp free
  have uncapped : statusCaps (combinarEstados status
      (estadoPorSilencio (silentDays settings agoraMs))) key = none := by
    cases estado : combinarEstados status (estadoPorSilencio (silentDays settings agoraMs)) with
    | unknown | active | grace => rfl
    | restricted => exact absurd estado notRestricted
    | suspended => exact absurd estado notSuspended
  have unset : caps status = [] := by
    cases status with
    | unknown | active | grace => rfl
    | restricted => exact absurd (Or.inl rfl) free
    | suspended => exact absurd (Or.inl rfl) runs
  rw [policy_merged, policy_estado, mergedRestrictions, uncapped, parseRestrictions_stores, unset,
    if_neg not_mem_nil, denies_iff]
  cases (field sent.fields key.name).bind (boolean runtime) with
  | none => simp [defaultRestrictions]
  | some restriction => simp

end Effective

/-- What the claim of a restriction asks of a read of the policy after a heartbeat. -/
structure Monotone (settings : Settings) (agoraMs : ℤ) (status : EstadoDaLicenca)
    (sent : RestrictionMap runtime) : Prop where
  respects : ∀ key, sent.denies key →
    (getPolicy runtime (stores settings status sent) agoraMs).restrictions key = false
  milder : ∀ settings' agoraMs' status',
    gravidade (getPolicy runtime (stores settings' status' sent) agoraMs').licenseStatus ≤
      gravidade (getPolicy runtime (stores settings status sent) agoraMs).licenseStatus →
    ∀ key, (getPolicy runtime (stores settings status sent) agoraMs).restrictions key = true →
      (getPolicy runtime (stores settings' status' sent) agoraMs').restrictions key = true
  agrees : ∀ key,
    (getPolicy runtime (stores settings status sent) agoraMs).restrictions key = true →
      connectorAllows status sent key
  agreesUnlessSilent : estadoPorSilencio (silentDays settings agoraMs) = .active → ∀ key,
    connectorAllows status sent key →
      (getPolicy runtime (stores settings status sent) agoraMs).restrictions key = true

theorem connectorAllows_iff (key : Restriction) :
    connectorAllows status sent key ↔ key ∉ caps status ∧ ¬sent.denies key := by
  rw [connectorAllows, applyStatusCaps_field, RestrictionMap.denies]
  by_cases cut : key ∈ caps status
  · rw [if_pos cut]
    exact ⟨fun other => absurd rfl other, fun both => absurd cut both.1⟩
  · rw [if_neg cut]
    exact ⟨fun other => ⟨cut, other⟩, fun both => both.2⟩

section Covered

variable {settings : Settings} {agoraMs : ℤ} {status : EstadoDaLicenca}
  {sent : RestrictionMap runtime}

theorem respects_iff : (∀ key, sent.denies key →
      (getPolicy runtime (stores settings status sent) agoraMs).restrictions key = false) ↔
      Covered status (silentDays settings agoraMs) sent := by
  apply forall_congr'
  intro key
  apply imp_congr_right
  intro denied
  rw [← Bool.not_eq_true]
  by_cases suspends : Suspends status (silentDays settings agoraMs)
  · rw [policy_suspended settings agoraMs status sent suspends key, not_not]
    exact ⟨fun cut => ⟨fun _ => cut, fun runs => absurd suspends runs⟩, fun both => both.1 suspends⟩
  · by_cases restricts : Restricts status (silentDays settings agoraMs)
    · rw [policy_restricted settings agoraMs status sent suspends restricts key, not_not]
      exact ⟨fun cut => ⟨fun late => absurd late suspends, fun _ _ => cut⟩,
        fun both => both.2 suspends restricts⟩
    · rw [policy_calm settings agoraMs status sent suspends restricts key, not_not]
      exact ⟨fun _ => ⟨fun late => absurd late suspends, fun _ late => absurd late restricts⟩,
        fun _ => denied⟩

theorem uncut_of_allowed {key : Restriction}
    (allowed : (getPolicy runtime (stores settings status sent) agoraMs).restrictions key = true)
    {milder : EstadoDaLicenca}
    (below : gravidade milder ≤ gravidade (getPolicy runtime (stores settings status sent)
      agoraMs).licenseStatus) :
    key ∉ caps milder := by
  rw [policy_estado] at below
  by_cases suspends : Suspends status (silentDays settings agoraMs)
  · have uncut := (policy_suspended settings agoraMs status sent suspends key).mp allowed
    cases milder with
    | unknown | active | grace => exact not_mem_nil
    | restricted => exact fun cut => uncut (caps_mono key cut)
    | suspended => exact uncut
  · by_cases restricts : Restricts status (silentDays settings agoraMs)
    · have uncut :=
        (policy_restricted settings agoraMs status sent suspends restricts key).mp allowed
      rw [(estado_restricted suspends).mpr restricts] at below
      cases milder with
      | unknown | active | grace => exact not_mem_nil
      | restricted => exact uncut
      | suspended => exact absurd below (by decide)
    · cases estado : combinarEstados status (estadoPorSilencio (silentDays settings agoraMs)) with
      | suspended => exact absurd ((estado_suspended _ _).mp estado) suspends
      | restricted => exact absurd ((estado_restricted suspends).mp estado) restricts
      | unknown | active | grace =>
        rw [estado] at below
        cases milder with
        | unknown | active | grace => exact not_mem_nil
        | restricted | suspended => exact absurd below (by decide)

section

variable
  (respects : ∀ key, sent.denies key →
    (getPolicy runtime (stores settings status sent) agoraMs).restrictions key = false)

include respects

theorem milder_of_respects (settings' : Settings) (agoraMs' : ℤ) (status' : EstadoDaLicenca)
    (below : gravidade (getPolicy runtime (stores settings' status' sent) agoraMs').licenseStatus ≤
      gravidade (getPolicy runtime (stores settings status sent) agoraMs).licenseStatus)
    (key : Restriction)
    (allowed : (getPolicy runtime (stores settings status sent) agoraMs).restrictions key = true) :
    (getPolicy runtime (stores settings' status' sent) agoraMs').restrictions key = true := by
  have uncut := uncut_of_allowed allowed below
  rw [policy_estado] at uncut
  by_cases suspends : Suspends status' (silentDays settings' agoraMs')
  · rw [(estado_suspended _ _).mpr suspends] at uncut
    exact (policy_suspended settings' agoraMs' status' sent suspends key).mpr uncut
  · by_cases restricts : Restricts status' (silentDays settings' agoraMs')
    · rw [(estado_restricted suspends).mpr restricts] at uncut
      exact (policy_restricted settings' agoraMs' status' sent suspends restricts key).mpr uncut
    · apply (policy_calm settings' agoraMs' status' sent suspends restricts key).mpr
      intro denied
      rw [respects key denied] at allowed
      cases allowed

theorem agrees_of_respects (key : Restriction)
    (allowed : (getPolicy runtime (stores settings status sent) agoraMs).restrictions key = true) :
    connectorAllows status sent key := by
  apply (connectorAllows_iff status sent key).mpr
  constructor
  · apply uncut_of_allowed allowed
    rw [policy_estado, gravidade_combinarEstados]
    exact le_max_left _ _
  · intro denied
    rw [respects key denied] at allowed
    cases allowed

end

theorem allowed_of_connector (speaks : estadoPorSilencio (silentDays settings agoraMs) = .active)
    (key : Restriction) (connector : connectorAllows status sent key) :
    (getPolicy runtime (stores settings status sent) agoraMs).restrictions key = true := by
  obtain ⟨uncut, free⟩ := (connectorAllows_iff status sent key).mp connector
  have estado := combinarEstados_active status
  rw [← speaks] at estado
  by_cases suspends : Suspends status (silentDays settings agoraMs)
  · rw [(estado_suspended _ _).mpr suspends] at estado
    rw [← estado] at uncut
    exact (policy_suspended settings agoraMs status sent suspends key).mpr uncut
  · by_cases restricts : Restricts status (silentDays settings agoraMs)
    · rw [(estado_restricted suspends).mpr restricts] at estado
      rw [← estado] at uncut
      exact (policy_restricted settings agoraMs status sent suspends restricts key).mpr uncut
    · exact (policy_calm settings agoraMs status sent suspends restricts key).mpr free

end Covered

/-- Restrictions are monotone exactly where a status with cuts of its own cuts all that the map of
the Central denies. -/
theorem restrictions_monotone_iff (settings : Settings) (agoraMs : ℤ) (status : EstadoDaLicenca)
    (sent : RestrictionMap runtime) : Monotone settings agoraMs status sent ↔
      Covered status (silentDays settings agoraMs) sent := by
  rw [← respects_iff]
  constructor
  · exact fun monotone => monotone.respects
  · intro respects
    exact ⟨respects, milder_of_respects respects, agrees_of_respects respects, allowed_of_connector⟩

/-! A read of the policy of a restricted installation. -/

theorem digit_lt {c : Char} (h : 48 ≤ c.toNat ∧ c.toNat < 58) : c.toNat - 48 < 10 := by omega

theorem oneDigit_ne_nil (n : Fin 10) : [Char.ofNat (48 + n)] ≠ [] := cons_ne_nil _ _

def oneDigit : Json.NumberFormat where
  Number := Fin 10
  write n := [Char.ofNat (48 + n)]
  read text :=
    match text with
    | [c] => if h : 48 ≤ c.toNat ∧ c.toNat < 58 then some ⟨c.toNat - 48, digit_lt h⟩ else none
    | _ => none
  write_ne_nil := oneDigit_ne_nil
  written := by
    have digits : ∀ n : Fin 10, Json.isNumberChar (Char.ofNat (48 + n)) = true := by decide
    intro n c listed
    rw [mem_singleton.mp listed]
    exact digits n
  read_write := by decide

def oneDigitRuntime : Runtime where
  numbers := oneDigit
  number _ := none
  asText _ := []
  toLowerCase := JsString.toLowerCase

/-- The panel has switched exports off. -/
def withoutExports : RestrictionMap oneDigitRuntime where
  fields := [(exports.name, denial oneDigitRuntime)]
  live := by
    refine ⟨nodup_singleton _, ?_, trivial, trivial⟩
    apply Json.propertyOrder_named
    intro entry member
    rw [mem_singleton.mp member]
    decide

def inTouch : Settings where
  licenseStatus := none
  licenseMessage := none
  restrictions := none
  lastSyncAt := some diaMs
  lastError := none
  maiorInstanteVisto := none
  maxCameras := none
  maxUsers := none
  maxRetentionDays := none

/-- A restricted license gives back the exports that the Central has denied. -/
theorem restricted_exports_back :
    ¬ ∀ (runtime : Runtime) (settings : Settings) (agoraMs : ℤ) (status : EstadoDaLicenca)
      (sent : RestrictionMap runtime), Monotone settings agoraMs status sent := by
  intro always
  have monotone := always oneDigitRuntime inTouch diaMs .restricted withoutExports
  have speaks : silentDays inTouch diaMs = some 0 := by
    rw [silentDays, inTouch, diasSemContato_of_contact (by decide)]
    simp [agoraQueConta, diaMs]
  have runs : ¬Suspends .restricted (silentDays inTouch diaMs) := by
    rw [speaks]
    simp [Suspends, reaches, diasAteSuspender]
  have denied : withoutExports.denies exports := by
    simp [RestrictionMap.denies, withoutExports, field]
  have back := (policy_restricted inTouch diaMs .restricted withoutExports runs (Or.inl rfl)
    exports).mpr (by decide)
  rw [monotone.respects exports denied] at back
  cases back

end DracVms.StatusCaps
