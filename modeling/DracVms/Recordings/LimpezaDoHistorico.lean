import DracVms.Library.JsNumeral

namespace DracVms.LimpezaDoHistorico

open Json (Text)
open JsString (trim)

/-- What a configuration may hold. A number that is not finite is none. -/
inductive Dias
  | ausente
  | numero (valor : Option ℚ)
  | texto (escrito : Text)

def Dias.cru (padrao : ℕ) : Dias → Option ℚ
  | ausente => some padrao
  | numero valor => valor
  | texto escrito => if trim escrito = [] then some padrao else JsNumeral.number escrito

def umDia : ℤ := 24 * 3600 * 1000

/-- The last instant of a `Date`, on either side of 1970. -/
def limiteDaData : ℤ := 8640000000000000

/-- `new Date(ms)`, none where the date is invalid. -/
def novaData (ms : ℤ) : Option ℤ :=
  if -limiteDaData ≤ ms ∧ ms ≤ limiteDaData then some ms else none

abbrev Relogio := { ms : ℤ // -limiteDaData ≤ ms ∧ ms ≤ limiteDaData }

def diasDeGuarda (dias : Dias) (padrao : ℕ) : ℤ :=
  match dias.cru padrao with
  | some cru => if 0 < cru then ⌊cru⌋ else padrao
  | none => padrao

def limiteDeCorte (agora : Relogio) (dias : Dias) (padrao : ℕ) : Option ℤ :=
  novaData (agora.val - diasDeGuarda dias padrao * umDia)

structure PrazosDeGuarda where
  ruidoDias : Dias
  rastroDias : Dias
  alarmeDias : Dias

def ruidoPadrao : ℕ := 30
def rastroPadrao : ℕ := 730
def alarmePadrao : ℕ := 90

def acoesQuePodemSerEsquecidas : List Text :=
  ["alarm.notification.delivery".toList, "stream.token.create".toList,
    "stream.live.failure".toList, "playback.token.create".toList,
    "playback.vod.playlist".toList, "investigation.export.signature.retry".toList,
    "ptz.start".toList, "ptz.stop".toList]

structure PlanoDeLimpeza where
  ruidoAntesDe : Option ℤ
  rastroAntesDe : Option ℤ
  alarmesAntesDe : Option ℤ
  acoesDeRuido : List Text

def planejarLimpeza (agora : Relogio) (prazos : PrazosDeGuarda) : PlanoDeLimpeza where
  ruidoAntesDe := limiteDeCorte agora prazos.ruidoDias ruidoPadrao
  rastroAntesDe := limiteDeCorte agora prazos.rastroDias rastroPadrao
  alarmesAntesDe := limiteDeCorte agora prazos.alarmeDias alarmePadrao
  acoesDeRuido := acoesQuePodemSerEsquecidas

/-! The service: where its days come from, and what it makes of a plan. -/

/-- `/^[+-]?(\d+\.?\d*|\.\d+)$/` -/
def numerico (texto : Text) : Bool :=
  let semSinal := match texto with
    | '+' :: resto | '-' :: resto => resto
    | _ => texto
  let inteira := semSinal.takeWhile Char.isDigit
  match semSinal.dropWhile Char.isDigit with
  | [] => inteira ≠ []
  | '.' :: fracao => fracao.all Char.isDigit && (inteira ≠ [] || fracao ≠ [])
  | _ => false

/-- The first comma is a decimal point. -/
def comPonto : Text → Text
  | [] => []
  | c :: resto => if c = ',' then '.' :: resto else c :: comPonto resto

def parseFiniteNumber (cru : Text) : Option ℚ :=
  let normalized := comPonto (trim cru)
  if numerico normalized then JsNumeral.number normalized else none

/-- With `integer: true`. -/
def envNumber (cru : Option Text) (fallback menor maior : ℤ) : ℤ :=
  let value : ℤ := match cru.bind parseFiniteNumber with
    | some valor => valor.num.tdiv valor.den
    | none => fallback
  if value < menor then menor else if maior < value then maior else value

def planoDoServico (agora : Relogio) (ambiente : Text → Option Text) : PlanoDeLimpeza :=
  let dias nome padrao menor : Dias :=
    .numero (some (envNumber (ambiente nome) padrao menor 3650 : ℤ))
  planejarLimpeza agora
    ⟨dias "AUDIT_NOISE_RETENTION_DAYS".toList ruidoPadrao 1,
      dias "AUDIT_TRAIL_RETENTION_DAYS".toList rastroPadrao 30,
      dias "ALARM_RETENTION_DAYS".toList alarmePadrao 1⟩

structure AuditLog where
  action : Text
  createdAt : ℤ

/-- The two tables that have a limit, and all the others. -/
structure Base (Outras : Type) where
  auditLog : List AuditLog
  alarmInstance : List ℤ
  outras : Outras

/-- `deleteMany` with `createdAt: { lt: corte }`: an invalid date is refused, and any failure is
caught. -/
def deleteMany {α : Type} (respondeu : Bool) (corte : Option ℤ) (criado : α → ℤ) (alvo : α → Bool)
    (linhas : List α) : List α :=
  match corte with
  | some antesDe =>
    if respondeu then linhas.filter fun linha => !(alvo linha && criado linha < antesDe)
    else linhas
  | none => linhas

structure Respostas where
  ruido : Bool
  rastro : Bool
  alarmes : Bool

/-- The three removals, each protected by itself. -/
def limparHistorico {Outras : Type} (plano : PlanoDeLimpeza) (respostas : Respostas)
    (base : Base Outras) : Base Outras :=
  let semRuido := deleteMany respostas.ruido plano.ruidoAntesDe AuditLog.createdAt
    (fun registro => registro.action ∈ plano.acoesDeRuido) base.auditLog
  { base with
    auditLog := deleteMany respostas.rastro plano.rastroAntesDe AuditLog.createdAt
      (fun registro => registro.action ∉ plano.acoesDeRuido) semRuido
    alarmInstance := deleteMany respostas.alarmes plano.alarmesAntesDe id (fun _ => true)
      base.alarmInstance }

/-! What the cut-offs leave alone. -/

/-- More than nothing and less than a day. -/
def FracaoDeDia (dias : Dias) (padrao : ℕ) : Prop :=
  ∃ cru, dias.cru padrao = some cru ∧ 0 < cru ∧ cru < 1

theorem diasDeGuarda_pos {dias : Dias} {padrao : ℕ} (positive : 0 < padrao)
    (inteiro : ¬ FracaoDeDia dias padrao) : 1 ≤ diasDeGuarda dias padrao := by
  unfold diasDeGuarda
  split
  · rename_i cru lido
    split
    · rename_i above
      have whole : 1 ≤ cru := by
        by_contra below
        exact inteiro ⟨cru, lido, above, not_le.mp below⟩
      exact Int.le_floor.mpr (by exact_mod_cast whole)
    · omega
  · omega

theorem diasDeGuarda_fracao {dias : Dias} {padrao : ℕ} (fracao : FracaoDeDia dias padrao) :
    diasDeGuarda dias padrao = 0 := by
  obtain ⟨cru, lido, above, below⟩ := fracao
  unfold diasDeGuarda
  rw [lido]
  dsimp only
  rw [if_pos above, Int.floor_eq_iff]
  exact ⟨by exact_mod_cast above.le, by simpa using below⟩

/-- A cut-off comes a day before now unless the days are a fraction of one. -/
theorem limiteDeCorte_iff (agora : Relogio) (dias : Dias) (padrao : ℕ) (positive : 0 < padrao) :
    (∀ corte, limiteDeCorte agora dias padrao = some corte → corte + umDia ≤ agora.val) ↔
      ¬ FracaoDeDia dias padrao := by
  constructor
  · intro antes fracao
    have hoje : limiteDeCorte agora dias padrao = some agora.val := by
      unfold limiteDeCorte novaData
      rw [diasDeGuarda_fracao fracao, Int.zero_mul, Int.sub_zero, if_pos agora.property]
    have late := antes agora.val hoje
    unfold umDia at late
    omega
  · intro inteiro corte planejado
    have days := diasDeGuarda_pos positive inteiro
    unfold limiteDeCorte novaData at planejado
    split at planejado
    · rw [← Option.some.inj planejado]
      unfold umDia
      omega
    · cases planejado

/-- The cut-offs of a plan. -/
def PlanoDeLimpeza.cortes (plano : PlanoDeLimpeza) : List ℤ :=
  [plano.ruidoAntesDe, plano.rastroAntesDe, plano.alarmesAntesDe].filterMap id

theorem mem_cortes {plano : PlanoDeLimpeza} {corte : ℤ} :
    corte ∈ plano.cortes ↔ plano.ruidoAntesDe = some corte ∨ plano.rastroAntesDe = some corte ∨
      plano.alarmesAntesDe = some corte := by
  simp [PlanoDeLimpeza.cortes, List.mem_filterMap, eq_comm]

theorem deleteMany_gone {α : Type} {respondeu : Bool} {corte : Option ℤ} {criado : α → ℤ}
    {alvo : α → Bool} {linhas : List α} {linha : α} (before : linha ∈ linhas)
    (gone : linha ∉ deleteMany respondeu corte criado alvo linhas) :
    ∃ antesDe, corte = some antesDe ∧ criado linha < antesDe := by
  unfold deleteMany at gone
  split at gone
  · rename_i antesDe
    split at gone
    · refine ⟨antesDe, rfl, ?_⟩
      rw [List.mem_filter, not_and] at gone
      have due := gone before
      simp only [Bool.not_eq_true', Bool.not_eq_false, Bool.and_eq_true, decide_eq_true_eq] at due
      exact due.2
    · exact absurd before gone
  · exact absurd before gone

/-- Whatever goes is older than a cut-off of the plan, and no other table changes. -/
structure Confinada (plano : PlanoDeLimpeza) : Prop where
  outras : ∀ (Outras : Type) (base : Base Outras) respostas,
    (limparHistorico plano respostas base).outras = base.outras
  registros : ∀ (Outras : Type) (base : Base Outras) respostas, ∀ registro ∈ base.auditLog,
    registro ∉ (limparHistorico plano respostas base).auditLog →
      ∃ corte ∈ plano.cortes, registro.createdAt < corte
  alarmes : ∀ (Outras : Type) (base : Base Outras) respostas, ∀ criado ∈ base.alarmInstance,
    criado ∉ (limparHistorico plano respostas base).alarmInstance →
      ∃ corte ∈ plano.cortes, criado < corte

theorem confinada (plano : PlanoDeLimpeza) : Confinada plano where
  outras := fun _ _ _ => rfl
  registros := by
    intro Outras base respostas registro before gone
    by_cases kept : registro ∈ deleteMany respostas.ruido plano.ruidoAntesDe AuditLog.createdAt
        (fun registro => registro.action ∈ plano.acoesDeRuido) base.auditLog
    · obtain ⟨corte, planned, older⟩ := deleteMany_gone kept gone
      exact ⟨corte, mem_cortes.mpr (Or.inr (Or.inl planned)), older⟩
    · obtain ⟨corte, planned, older⟩ := deleteMany_gone before kept
      exact ⟨corte, mem_cortes.mpr (Or.inl planned), older⟩
  alarmes := by
    intro Outras base respostas criado before gone
    obtain ⟨corte, planned, older⟩ := deleteMany_gone before gone
    exact ⟨corte, mem_cortes.mpr (Or.inr (Or.inr planned)), older⟩

/-- The present is out of reach. -/
def PoupaOPresente (agora : Relogio) (plano : PlanoDeLimpeza) : Prop :=
  (∀ corte ∈ plano.cortes, corte + umDia ≤ agora.val) ∧ Confinada plano

theorem cortes_iff (agora : Relogio) (prazos : PrazosDeGuarda) :
    (∀ corte ∈ (planejarLimpeza agora prazos).cortes, corte + umDia ≤ agora.val) ↔
      ¬ FracaoDeDia prazos.ruidoDias ruidoPadrao ∧ ¬ FracaoDeDia prazos.rastroDias rastroPadrao ∧
        ¬ FracaoDeDia prazos.alarmeDias alarmePadrao := by
  have ruido := limiteDeCorte_iff agora prazos.ruidoDias ruidoPadrao (by decide)
  have rastro := limiteDeCorte_iff agora prazos.rastroDias rastroPadrao (by decide)
  have alarme := limiteDeCorte_iff agora prazos.alarmeDias alarmePadrao (by decide)
  rw [← ruido, ← rastro, ← alarme]
  constructor
  · intro antes
    exact ⟨fun corte planned => antes corte (mem_cortes.mpr (Or.inl planned)),
      fun corte planned => antes corte (mem_cortes.mpr (Or.inr (Or.inl planned))),
      fun corte planned => antes corte (mem_cortes.mpr (Or.inr (Or.inr planned)))⟩
  · rintro ⟨first, second, third⟩ corte listed
    rcases mem_cortes.mp listed with planned | planned | planned
    · exact first corte planned
    · exact second corte planned
    · exact third corte planned

theorem poupaOPresente_iff (agora : Relogio) (prazos : PrazosDeGuarda) :
    PoupaOPresente agora (planejarLimpeza agora prazos) ↔
      ¬ FracaoDeDia prazos.ruidoDias ruidoPadrao ∧ ¬ FracaoDeDia prazos.rastroDias rastroPadrao ∧
        ¬ FracaoDeDia prazos.alarmeDias alarmePadrao := by
  rw [← cortes_iff agora prazos]
  exact ⟨And.left, fun antes => ⟨antes, confinada _⟩⟩

theorem envNumber_inteiro (cru : Option Text) (fallback menor : ℤ) (positive : 1 ≤ menor)
    (within : menor ≤ 3650) (padrao : ℕ) :
    ¬ FracaoDeDia (.numero (some (envNumber cru fallback menor 3650 : ℤ))) padrao := by
  rintro ⟨valor, lido, -, below⟩
  obtain rfl := Option.some.inj lido
  have inside : menor ≤ envNumber cru fallback menor 3650 := by
    unfold envNumber
    extract_lets value
    split
    · omega
    · split <;> omega
  have whole : envNumber cru fallback menor 3650 < 1 := by exact_mod_cast below
  omega

/-- Whatever the environment holds, the service spares the present: its days are whole. -/
theorem planoDoServico_poupa (agora : Relogio) (ambiente : Text → Option Text) :
    PoupaOPresente agora (planoDoServico agora ambiente) :=
  ⟨(cortes_iff agora _).mpr
    ⟨envNumber_inteiro _ _ 1 (by decide) (by decide) _,
      envNumber_inteiro _ _ 30 (by decide) (by decide) _,
      envNumber_inteiro _ _ 1 (by decide) (by decide) _⟩, confinada _⟩

/-- Half a day of noise is no day at all, and the plan reaches up to now. -/
theorem meioDia_reaches : ¬ PoupaOPresente ⟨1788000000000, by decide⟩
    (planejarLimpeza ⟨1788000000000, by decide⟩
      ⟨.numero (some (1 / 2)), .numero (some 730), .numero (some 90)⟩) := by
  rintro ⟨antes, -⟩
  have late := antes 1788000000000 (by decide +kernel)
  revert late
  decide

end DracVms.LimpezaDoHistorico
