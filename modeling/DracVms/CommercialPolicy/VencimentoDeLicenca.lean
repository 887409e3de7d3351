import Mathlib

namespace DracVms.VencimentoDeLicenca

inductive EstadoDaLicenca where
  | unknown
  | active
  | grace
  | restricted
  | suspended
  deriving DecidableEq

open EstadoDaLicenca

def diasAteRestringir : ℚ := 10

def diasAteSuspender : ℚ := 15

def diasParaComecarAAvisar : ℚ := 7

/-- A day in milliseconds. -/
def diaMs : ℤ := 24 * 60 * 60 * 1000

/-- The greater number counts where two states meet. -/
def gravidade : EstadoDaLicenca → ℕ
  | active => 0
  | grace => 1
  | unknown => 2
  | restricted => 3
  | suspended => 4

/-- The instant that the count of days takes for now. -/
def agoraQueConta (ultimo agoraMs : ℤ) (maiorInstanteVistoMs : Option ℤ) : ℤ :=
  max (max agoraMs (maiorInstanteVistoMs.getD 0)) ultimo

/-- The days since the last contact; nothing stands for infinity. -/
def diasSemContato (ultimoContatoMs : Option ℤ) (agoraMs : ℤ) (maiorInstanteVistoMs : Option ℤ) :
    Option ℚ :=
  match ultimoContatoMs with
  | none => none
  | some ultimo =>
    if ultimo ≤ 0 then none
    else
      let agora := agoraQueConta ultimo agoraMs maiorInstanteVistoMs
      some (max 0 (((agora - ultimo : ℤ) : ℚ) / diaMs))

def estadoPorSilencio : Option ℚ → EstadoDaLicenca
  | none => suspended
  | some dias =>
    if diasAteSuspender ≤ dias then suspended
    else if diasAteRestringir ≤ dias then restricted
    else active

def combinarEstados (daCentral doSilencio : EstadoDaLicenca) : EstadoDaLicenca :=
  if gravidade daCentral < gravidade doSilencio then doSilencio else daCentral

inductive Motivo where
  | emDia
  | silencioRestringiu
  | silencioSuspendeu
  | centralRestringiu
  | nuncaFalou
  deriving DecidableEq

structure DecisaoDeLicenca where
  estado : EstadoDaLicenca
  /-- Whole days of silence; nothing stands for infinity. -/
  diasSemContato : Option ℤ
  diasAteOProximoCorte : Option ℤ
  avisar : Bool
  motivo : Motivo

def decidirLicenca (estadoDaCentral : EstadoDaLicenca) (ultimoContatoMs : Option ℤ) (agoraMs : ℤ)
    (maiorInstanteVistoMs : Option ℤ) : DecisaoDeLicenca :=
  let dias := diasSemContato ultimoContatoMs agoraMs maiorInstanteVistoMs
  let doSilencio := estadoPorSilencio dias
  let estado := combinarEstados estadoDaCentral doSilencio
  { estado := estado
    diasSemContato := dias.map fun d => ⌊d⌋
    diasAteOProximoCorte :=
      if estado = suspended then none
      else dias.map fun d =>
        max 0 ⌈(if d < diasAteRestringir then diasAteRestringir else diasAteSuspender) - d⌉
    avisar :=
      match dias with
      | none => true
      | some d => diasParaComecarAAvisar ≤ d
    motivo :=
      match dias with
      | none => .nuncaFalou
      | some _ =>
        match doSilencio with
        | suspended => .silencioSuspendeu
        | restricted => .silencioRestringiu
        | _ => if estado = restricted ∨ estado = suspended then .centralRestringiu else .emDia }

theorem agoraQueConta_ge (ultimo agoraMs : ℤ) (maiorInstanteVistoMs : Option ℤ) :
    ultimo ≤ agoraQueConta ultimo agoraMs maiorInstanteVistoMs := le_max_right _ _

theorem diasSemContato_of_contact {ultimo : ℤ} (positive : 0 < ultimo) (agoraMs : ℤ)
    (maiorInstanteVistoMs : Option ℤ) : diasSemContato (some ultimo) agoraMs maiorInstanteVistoMs =
      some (((agoraQueConta ultimo agoraMs maiorInstanteVistoMs - ultimo : ℤ) : ℚ) / diaMs) := by
  have after := agoraQueConta_ge ultimo agoraMs maiorInstanteVistoMs
  have elapsed : (0 : ℚ) ≤
      ((agoraQueConta ultimo agoraMs maiorInstanteVistoMs - ultimo : ℤ) : ℚ) := by
    exact_mod_cast Int.sub_nonneg.mpr after
  have day : (0 : ℚ) ≤ (diaMs : ℚ) := by
    norm_num [diaMs]
  rw [diasSemContato, if_neg (not_le.mpr positive)]
  simp only [max_eq_right (div_nonneg elapsed day)]

theorem diasSemContato_of_none {ultimo : ℤ} (before : ultimo ≤ 0) (agoraMs : ℤ)
    (maiorInstanteVistoMs : Option ℤ) :
    diasSemContato (some ultimo) agoraMs maiorInstanteVistoMs = none := by
  rw [diasSemContato, if_pos before]

theorem combinarEstados_active (daCentral : EstadoDaLicenca) :
    combinarEstados daCentral active = daCentral := if_neg (Nat.not_lt_zero _)

theorem gravidade_combinarEstados (daCentral doSilencio : EstadoDaLicenca) :
    gravidade (combinarEstados daCentral doSilencio) =
      max (gravidade daCentral) (gravidade doSilencio) := by
  unfold combinarEstados
  by_cases silence : gravidade daCentral < gravidade doSilencio
  · rw [if_pos silence]
    omega
  · rw [if_neg silence]
    omega

/-- A longer silence is never answered with a milder state. -/
theorem gravidade_estadoPorSilencio {menos mais : ℚ} (longer : menos ≤ mais) :
    gravidade (estadoPorSilencio (some menos)) ≤ gravidade (estadoPorSilencio (some mais)) := by
  simp only [estadoPorSilencio]
  by_cases suspends : diasAteSuspender ≤ menos
  · rw [if_pos suspends, if_pos (le_trans suspends longer)]
  · rw [if_neg suspends]
    by_cases restricts : diasAteRestringir ≤ menos
    · rw [if_pos restricts]
      split
      · decide
      · rw [if_pos (le_trans restricts longer)]
    · rw [if_neg restricts]
      exact Nat.zero_le _

end DracVms.VencimentoDeLicenca
