import DracVms.Database.Schema
import DracVms.Library.JsString
import DracVms.Library.Runs

namespace DracVms.FleetAlerts

open Json (Text)
open JsString (sliceUnits Unicode)
open JsString.Unicode (toLowerCase)
open Database (Instant)

variable [Unicode]

inductive Level where
  | warning
  | critical
  deriving DecidableEq

def alertLevelRank : Level → ℕ
  | .warning => 1
  | .critical => 2

/-- An alert as an installation sends it: the texts of its fields, empty where a field is missing or
false. -/
structure RawAlert where
  code : Text
  message : Text
  key : Text
  level : Text

structure Alert where
  key : Text
  level : Level
  code : Text
  message : Text

/-- `a || b`, for texts. -/
def orText (a b : Text) : Text := if a = [] then b else a

/-! `normalizarAlertaOperacional`. -/

def isDigit (c : Char) : Bool := '0' ≤ c && c ≤ '9'

/-- The text of the first number, with a point where it has a comma. -/
def firstNumber (text : Text) : Option Text :=
  let rest := text.dropWhile fun c => !isDigit c
  let whole := rest.takeWhile isDigit
  if whole = [] then none
  else
    match rest.dropWhile isDigit with
    | c :: fraction =>
      let digits := fraction.takeWhile isDigit
      if (c = '.' ∨ c = ',') ∧ digits ≠ [] then some (whole ++ '.' :: digits) else some whole
    | [] => some whole

/-- The number as JavaScript writes it; `numeral` is `String(Number(text))`. -/
def primeiroNumero (numeral : Text → Text) (text : Text) : Text :=
  match firstNumber text with
  | some digits => numeral digits
  | none => "0".toList

def um (n : Text) : Bool := n = "1".toList

def quantidade (n singular plural : Text) : Text :=
  n ++ " ".toList ++ if um n then singular else plural

def cameras (n : Text) : Text := quantidade n "câmera".toList "câmeras".toList

def gravacoes (n : Text) : Text := quantidade n "gravação".toList "gravações".toList

def rotulosServico : List (Text × Text) :=
  [("api".toList, "serviço principal".toList),
    ("web".toList, "página do sistema".toList),
    ("postgres".toList, "banco de dados".toList),
    ("redis".toList, "serviço de filas".toList),
    ("mediamtx".toList, "serviço de vídeo ao vivo".toList),
    ("go2rtc".toList, "serviço de compatibilidade de vídeo".toList),
    ("rtmp-ingest".toList, "recebimento de vídeo das câmeras".toList),
    ("postgres-backup".toList, "serviço de backup do banco de dados".toList),
    ("postgres-backup-verify".toList, "verificação dos backups do banco de dados".toList),
    ("central".toList, "comunicação com a Central".toList),
    ("ai-service".toList, "serviço de análise de vídeo".toList),
    ("camera-worker".toList, "serviço de processamento de câmeras".toList)]

def isDash (c : Char) : Bool := c = '-' || c = '_'

/-- One blank for each run of dashes. -/
def spaced : Bool → Text → Text
  | _, [] => []
  | inRun, c :: rest =>
    if isDash c then (if inRun then spaced true rest else ' ' :: spaced true rest)
    else c :: spaced false rest

def infraMark : Text := "infra:".toList

def startsWithInfra (text : Text) : Bool :=
  JsString.toLowerCase (text.take infraMark.length) = infraMark

def stripInfra (text : Text) : Text :=
  if startsWithInfra text then (text.drop infraMark.length).dropWhile JsString.isBlank else text

def stripInfraCode (codigo : Text) : Text :=
  if "infra_".toList.isPrefixOf codigo then codigo.drop 6 else codigo

structure Infra where
  key : Text
  level : Level
  message : Text

def alertaInfraAmigavel (codigo mensagem : Text) : Infra :=
  let partes := ((stripInfra mensagem).splitOn ':').map JsString.trim
  let tipo := orText (partes.headD []) (stripInfraCode codigo)
  let segunda := (partes[1]?).getD []
  if tipo = "container".toList then
    let nome := orText segunda "desconhecido".toList
    let rotulo := (rotulosServico.lookup nome).getD ("serviço ".toList ++ spaced false nome)
    ⟨"infra_container:".toList ++ nome, .critical,
      "O ".toList ++ rotulo ++ " da instalação não está funcionando.".toList⟩
  else if tipo = "api".toList then
    ⟨"infra_api".toList, .critical,
      "O serviço principal da instalação não está respondendo.".toList⟩
  else if tipo = "web".toList then
    ⟨"infra_web".toList, .critical,
      "A página do sistema na instalação não está respondendo.".toList⟩
  else if tipo = "build-agent".toList then
    ⟨"infra_build_agent".toList, .warning,
      "O serviço de geração do aplicativo não está respondendo.".toList⟩
  else if tipo = "live".toList then
    ⟨"infra_live:".toList ++ orText segunda "video".toList, .critical,
      "O serviço de vídeo ao vivo não está respondendo corretamente.".toList⟩
  else if tipo = "backup".toList then
    ⟨"infra_backup".toList, .warning,
      "A instalação está sem um backup recente há mais de 36 horas.".toList⟩
  else if tipo = "security".toList then
    ⟨"infra_security_log".toList, .critical,
      "O sistema encontrou uma possível informação sigilosa nos registros. ".toList ++
        "A equipe técnica deve verificar.".toList⟩
  else if tipo = "site-cameras".toList then
    ⟨"infra_camera_network".toList, .critical,
      "A rede das câmeras não está respondendo a partir do servidor da instalação.".toList⟩
  else
    ⟨orText codigo "infra_unknown".toList, .warning,
      "A instalação detectou um problema interno que precisa de verificação técnica.".toList⟩

/-- What the table of codes makes of an alert: its key where none was given, its level and its
message, as far as the code decides them. -/
structure Rule where
  key : Option Text
  critical : Bool
  message : Text

def ruleOf (code original n : Text) : Option Rule :=
  if code = "disk_usage_high".toList then
    some ⟨some "disk_usage".toList, true, "O disco do servidor está com ".toList ++ n ++
      "% de uso. O espaço para novas gravações está crítico.".toList⟩
  else if code = "disk_usage_attention".toList then
    some ⟨some "disk_usage".toList, false,
      "O disco do servidor está com ".toList ++ n ++ "% de uso e precisa de atenção.".toList⟩
  else if code = "cameras_unavailable".toList then
    some ⟨none, false, cameras n ++ " ".toList ++ (if um n then "está" else "estão").toList ++
      " sem comunicação ou com erro.".toList⟩
  else if code = "no_online_cameras".toList then
    some ⟨none, true, "Todas as câmeras da instalação estão sem comunicação.".toList⟩
  else if code = "stream_high_cpu_risk".toList then
    some ⟨none, false, cameras n ++ " ".toList ++
      (if um n then "está exigindo" else "estão exigindo").toList ++
      " processamento elevado para exibir vídeo. As imagens podem apresentar lentidão.".toList⟩
  else if code = "live_failures_recent".toList then
    some ⟨none, false, (if um n then "Foi detectada" else "Foram detectadas").toList ++
      " ".toList ++ quantidade n "falha".toList "falhas".toList ++
      " ao abrir imagens ao vivo nas últimas 24 horas.".toList⟩
  else if code = "recording_without_last_segment".toList then
    some ⟨none, false,
      "O sistema não conseguiu identificar o horário da gravação mais recente.".toList⟩
  else if code = "recording_disabled_all".toList then
    some ⟨none, false, "Nenhuma câmera está configurada para gravar, ".toList ++
      "embora a instalação exija gravação.".toList⟩
  else if code = "recording_storage_capacity_insufficient".toList then
    some ⟨some "recording_storage_capacity".toList, true,
      "O armazenamento disponível não é suficiente para manter ".toList ++
        "o período de gravações configurado.".toList⟩
  else if code = "recording_storage_capacity_attention".toList then
    some ⟨some "recording_storage_capacity".toList, false,
      "O armazenamento está próximo do limite necessário para manter ".toList ++
        "o período de gravações configurado.".toList⟩
  else if code = "cameras_stalled".toList then
    some ⟨none, false, cameras n ++ " ".toList ++ (if um n then "parou" else "pararam").toList ++
      " de gerar novas gravações.".toList⟩
  else if code = "camera_recording_expected_inactive".toList then
    some ⟨none, false, cameras n ++ " ".toList ++
      (if um n then "deveria estar gravando, mas não está"
        else "deveriam estar gravando, mas não estão").toList ++ ".".toList⟩
  else if code = "motion_detection_failsafe".toList then
    some ⟨none, false, "A detecção de movimento deixou de responder em ".toList ++ cameras n ++
      ". A gravação de segurança foi ativada automaticamente.".toList⟩
  else if code = "cloud_recordings_missing".toList then
    some ⟨none, true, gravacoes n ++ " ".toList ++
      (if um n then "que deveria estar armazenada na nuvem não foi encontrada"
        else "que deveriam estar armazenadas na nuvem não foram encontradas").toList ++ ".".toList⟩
  else if code = "cloud_upload_delayed".toList then
    some ⟨none, false, gravacoes n ++ " ".toList ++
      (if um n then "aguarda" else "aguardam").toList ++
      " envio para a nuvem há mais tempo que o esperado.".toList⟩
  else if code = "infra_watchdog_stale".toList then
    some ⟨none, false, "O serviço que verifica a saúde da instalação não envia ".toList ++
      "informações há mais de 15 minutos.".toList⟩
  else if code = "installation_offline".toList then
    some ⟨some "installation_connectivity".toList, true, orText original
      ("A instalação parou de se comunicar com a Central. ".toList ++
        "A equipe deve verificar a internet e o servidor local.".toList)⟩
  else none

def normalizarAlertaOperacional (numeral : Text → Text) (alerta : RawAlert) : Alert :=
  let code := sliceUnits 100 (toLowerCase (JsString.trim (orText alerta.code "generic".toList)))
  let original := sliceUnits 500 (JsString.trim alerta.message)
  let informado := sliceUnits 160 (toLowerCase (JsString.trim alerta.key))
  let level := if alerta.level = "critical".toList then Level.critical else .warning
  match ruleOf code original (primeiroNumero numeral original) with
  | some rule =>
    { key := orText informado (rule.key.getD code)
      level := if rule.critical then .critical else level
      code := code
      message := rule.message }
  | none =>
    if "infra_".toList.isPrefixOf code ∧ (informado = [] ∨ startsWithInfra original) then
      let infra := alertaInfraAmigavel code original
      { key := orText informado infra.key, level := infra.level, code := code,
        message := infra.message }
    else
      { key := orText informado code, level := level, code := code
        message := orText original "A instalação informou um problema operacional.".toList }

/-! The history. -/

def alertKey (alert : Alert) : Text :=
  let informedKey := sliceUnits 160 (toLowerCase (JsString.trim alert.key))
  if informedKey ≠ [] then informedKey
  else
    let code := toLowerCase (JsString.trim (orText alert.code "generic".toList))
    if code ≠ "generic".toList then code
    else
      code ++ ":".toList ++ sliceUnits 120 (toLowerCase (JsString.trim alert.message))

inductive Status where
  | active
  | resolved
  deriving DecidableEq

structure Entry where
  key : Text
  status : Status
  level : Level
  code : Text
  message : Text
  firstSeenAt : Instant
  lastSeenAt : Instant
  resolvedAt : Option Instant
  occurrences : ℕ

def levelText : Level → Text
  | .warning => "warning".toList
  | .critical => "critical".toList

/-- The key that an entry would have had without its own. -/
def canonicalKey (numeral : Text → Text) (entry : Entry) : Text :=
  alertKey (normalizarAlertaOperacional numeral
    ⟨entry.code, entry.message, [], levelText entry.level⟩)

section History

variable (canonical : Entry → Text)

/-- The last entry with a key; for the other keys, the first entry that would have had it. -/
def indexEntry (index : Text → Option ℕ) (placed : Entry × ℕ) : Text → Option ℕ :=
  let own := Function.update index placed.1.key (some placed.2)
  if (own (canonical placed.1)).isSome then own
  else Function.update own (canonical placed.1) (some placed.2)

def indexByKey (history : List Entry) : Text → Option ℕ :=
  history.zipIdx.foldl (indexEntry canonical) fun _ => none

/-- What is announced of an alert. -/
structure Notice where
  key : Text
  level : Level
  code : Text
  message : Text

def orGeneric (code : Text) : Text := orText code "generic".toList

def orDefault (message : Text) : Text := orText message "Alerta operacional.".toList

def create (now : Instant) (alert : Alert) : Entry where
  key := alertKey alert
  status := .active
  level := alert.level
  code := orGeneric alert.code
  message := orDefault alert.message
  firstSeenAt := now
  lastSeenAt := now
  resolvedAt := none
  occurrences := 1

def reopen (now : Instant) (entry : Entry) (alert : Alert) : Entry where
  key := alertKey alert
  status := .active
  level := alert.level
  code := orGeneric (orText alert.code entry.code)
  message := orDefault (orText alert.message entry.message)
  firstSeenAt := entry.firstSeenAt
  lastSeenAt := now
  resolvedAt := none
  occurrences := entry.occurrences + 1

def escalated (entry : Entry) (alert : Alert) : Bool :=
  entry.status = .active && decide (alertLevelRank entry.level < alertLevelRank alert.level)

/-- Whether an alert is announced for its entry. -/
def isNews (entry : Entry) (alert : Alert) : Bool :=
  entry.status ≠ .active || escalated entry alert

def noticeOf (entry : Entry) (alert : Alert) : Notice :=
  ⟨alertKey alert, alert.level, orGeneric (orText alert.code entry.code),
    orDefault (orText alert.message entry.message)⟩

structure Pass where
  history : List Entry
  novos : List Notice

/-- The index is not updated when an entry is added. -/
def takeAlert (index : Text → Option ℕ) (now : Instant) (pass : Pass) (alert : Alert) : Pass :=
  match (index (alertKey alert)).bind fun i => pass.history[i]?.map (i, ·) with
  | none =>
    ⟨pass.history ++ [create now alert],
      pass.novos ++ [⟨alertKey alert, alert.level, orGeneric alert.code, orDefault alert.message⟩]⟩
  | some (i, entry) =>
    ⟨pass.history.set i (reopen now entry alert),
      if isNews entry alert then pass.novos ++ [noticeOf entry alert] else pass.novos⟩

def stops (activeKeys : List Text) (entry : Entry) : Bool :=
  entry.status = .active && entry.key ∉ activeKeys

def resolve (now : Instant) (activeKeys : List Text) (entry : Entry) : Entry :=
  if stops activeKeys entry then { entry with status := .resolved, resolvedAt := some now }
  else entry

def resolvedNotice (entry : Entry) : Notice := ⟨entry.key, entry.level, entry.code, entry.message⟩

structure Update where
  /-- The entries before they are sorted and cut, which the old list shares. -/
  entries : List Entry
  history : List Entry
  novos : List Notice
  resolvidos : List Notice

def later (a b : Entry) : Prop := b.lastSeenAt ≤ a.lastSeenAt

instance : DecidableRel later := fun a b =>
  inferInstanceAs (Decidable (b.lastSeenAt ≤ a.lastSeenAt))

def updateAlertHistory (limit : ℕ) (history : List Entry) (alerts : List Alert) (now : Instant) :
    Update :=
  let activeKeys := alerts.map alertKey
  let pass := alerts.foldl (takeAlert (indexByKey canonical history) now) ⟨history, []⟩
  let entries := pass.history.map (resolve now activeKeys)
  { entries := entries
    history := (entries.insertionSort later).take limit
    novos := pass.novos
    resolvidos := (pass.history.filter (stops activeKeys)).map resolvedNotice }

end History

/-! One installation. -/

def connectivityKey : Text := "installation_connectivity".toList

structure Installation where
  lastHeartbeatAt : Option Instant
  /-- The alerts of the last heartbeat. -/
  alerts : List Alert
  alertHistory : List Entry
  /-- Whether a check has found it silent since. -/
  silent : Bool
  /-- The history before the last step, and what that step announced. -/
  before : List Entry
  novos : List Notice
  resolvidos : List Notice

def Installation.start : Installation := ⟨none, [], [], false, [], [], []⟩

structure Settings where
  numeral : Text → Text
  onlineThresholdSeconds : ℕ
  alertHistoryLimit : ℕ

section Steps

variable (settings : Settings)

def receivedAlerts (received : List RawAlert) : List Alert :=
  (received.take 100).map (normalizarAlertaOperacional settings.numeral)

def offlineAlert (ageSeconds : ℕ) : RawAlert where
  key := connectivityKey
  level := "critical".toList
  code := "installation_offline".toList
  message := "A instalação não envia informações à Central há ".toList ++
    Nat.toDigits 10 (max 1 (ageSeconds / 60)) ++
    " minutos. A equipe deve verificar a internet e o servidor local.".toList

def relisted (entry : Entry) : Alert := ⟨entry.key, entry.level, entry.code, entry.message⟩

/-- The alerts that stay active, and that of the connectivity. -/
def offlineAlerts (history : List Entry) (ageSeconds : ℕ) : List Alert :=
  ((history.filter fun entry => entry.status = .active && entry.key ≠ connectivityKey).map
    relisted) ++ [normalizarAlertaOperacional settings.numeral (offlineAlert ageSeconds)]

/-- For how long the installation has been silent, if it is. -/
def silence (item : Installation) (now : Instant) : Option ℕ :=
  item.lastHeartbeatAt.bind fun last =>
    if settings.onlineThresholdSeconds < (now - last) / 1000 then some ((now - last) / 1000)
    else none

def connectivityActive (history : List Entry) : Bool :=
  history.any fun entry => entry.status = .active && entry.key = connectivityKey

inductive Step where
  | heartbeat (received : List RawAlert) (now : Instant)
  /-- A check of the monitor, whose document may be saved for another installation. -/
  | check (now : Instant) (saved : Bool)

def quiet (item : Installation) : Installation :=
  { item with before := item.alertHistory, novos := [], resolvidos := [] }

def Installation.heartbeat (item : Installation) (received : List RawAlert) (now : Instant) :
    Installation :=
  let alerts := receivedAlerts settings received
  let update := updateAlertHistory (canonicalKey settings.numeral) settings.alertHistoryLimit
    item.alertHistory alerts now
  { lastHeartbeatAt := some now
    alerts := alerts
    alertHistory := update.history
    silent := false
    before := item.alertHistory
    novos := update.novos
    resolvidos := update.resolvidos }

/-- `updateConnectivityAlert`, whose resolved alerts are not announced. Without news the history is
not replaced, but its entries have been changed in their places. -/
def Installation.check (item : Installation) (now : Instant) (saved : Bool) : Installation :=
  match silence settings item now with
  | none => quiet item
  | some ageSeconds =>
    if connectivityActive item.alertHistory then { quiet item with silent := true }
    else
      let update := updateAlertHistory (canonicalKey settings.numeral)
        settings.alertHistoryLimit item.alertHistory (offlineAlerts settings item.alertHistory
          ageSeconds) now
      { quiet item with
        silent := true
        alertHistory :=
          if update.novos ≠ [] then update.history
          else if saved then update.entries
          else item.alertHistory
        novos := update.novos }

def step (item : Installation) : Step → Installation
  | .heartbeat received now => item.heartbeat settings received now
  | .check now saved => item.check settings now saved

end Steps

/-! What the alerts promise. -/

section Promise

variable (settings : Settings)

def ActiveKey (history : List Entry) (key : Text) : Prop :=
  ∃ entry ∈ history, entry.status = .active ∧ entry.key = key

/-- A key is active, and no entry was active under it before with as high a level. -/
def BecameOrRose (before after : List Entry) (key : Text) : Prop :=
  ∃ entry ∈ after, entry.status = .active ∧ entry.key = key ∧
    ∀ old ∈ before, old.status = .active → old.key = key →
      alertLevelRank old.level < alertLevelRank entry.level

structure Exact (item : Installation) : Prop where
  distinct : (item.alertHistory.map Entry.key).Nodup
  active : ∀ key, ActiveKey item.alertHistory key ↔
    key ∈ item.alerts.map alertKey ∨ item.silent = true ∧ key = connectivityKey
  novosOnce : (item.novos.map Notice.key).Nodup
  novos : ∀ key, key ∈ item.novos.map Notice.key ↔
    BecameOrRose item.before item.alertHistory key
  resolvidosOnce : (item.resolvidos.map Notice.key).Nodup
  resolvidos : ∀ key, key ∈ item.resolvidos.map Notice.key ↔
    ActiveKey item.before key ∧ ¬ActiveKey item.alertHistory key

/-! When they keep that. -/

/-- The entry that an alert of this key is about: the one under the key, or else the first one that
would have had it. -/
def entryFor (canonical : Entry → Text) (history : List Entry) (key : Text) : Option Entry :=
  (history.find? fun entry => entry.key = key).or (history.find? fun entry => canonical entry = key)

def ranksOf (alerts : List Alert) (key : Text) : List ℕ :=
  (alerts.filter fun alert => alertKey alert = key).map fun alert => alertLevelRank alert.level

/-- The alerts of one key do not rise in severity, or where their entry is an active warning they do
not fall. -/
def Steady (entry : Entry) (ranks : List ℕ) : Prop :=
  if entry.status = .active ∧ entry.level = .warning then ranks.Pairwise (· ≤ ·)
  else ranks.Pairwise (· ≥ ·)

instance (entry : Entry) (ranks : List ℕ) : Decidable (Steady entry ranks) := by
  unfold Steady
  infer_instance

/-- A key without an entry comes once; a key with an entry of another key takes it over only where
that entry is not active and its key not in the list; the alerts of a key are steady. -/
def Orderly (canonical : Entry → Text) (history : List Entry) (alerts : List Alert) (key : Text) :
    Prop :=
  match entryFor canonical history key with
  | none => (alerts.map alertKey).count key = 1
  | some entry =>
    (entry.key = key ∨ entry.status ≠ .active ∧ entry.key ∉ alerts.map alertKey) ∧
      Steady entry (ranksOf alerts key)

instance (canonical : Entry → Text) (history : List Entry) (alerts : List Alert) (key : Text) :
    Decidable (Orderly canonical history alerts key) := by
  unfold Orderly
  split <;> infer_instance

/-- The keys of the alerts, and the other entries that were seen at that time or later. -/
def recent (history : List Entry) (alerts : List Alert) (now : Instant) : List Text :=
  (alerts.map alertKey).dedup ++
    (history.filter fun entry =>
      now ≤ entry.lastSeenAt && entry.key ∉ alerts.map alertKey).map Entry.key

/-- Each key is orderly, and the history has room for all that was seen last. -/
def Clean (history : List Entry) (alerts : List Alert) (now : Instant) : Prop :=
  (∀ key ∈ alerts.map alertKey, Orderly (canonicalKey settings.numeral) history alerts key) ∧
    (recent history alerts now).length ≤ settings.alertHistoryLimit

instance (history : List Entry) (alerts : List Alert) (now : Instant) :
    Decidable (Clean settings history alerts now) := by
  unfold Clean
  infer_instance

/-- A check that finds the installation silent gives the active entries their keys again. -/
def CleanStep (item : Installation) : Step → Prop
  | .heartbeat received now =>
    Clean settings item.alertHistory (receivedAlerts settings received) now
  | .check now _ =>
    ∀ ageSeconds ∈ silence settings item now, connectivityActive item.alertHistory = false →
      (∀ entry ∈ item.alertHistory, entry.status = .active →
        alertKey (relisted entry) = entry.key) ∧
      Clean settings item.alertHistory (offlineAlerts settings item.alertHistory ageSeconds) now

instance (item : Installation) (a : Step) : Decidable (CleanStep settings item a) :=
  match a with
  | .heartbeat _ _ => inferInstanceAs (Decidable (Clean settings _ _ _))
  | .check now _ => inferInstanceAs (Decidable (∀ ageSeconds ∈ silence settings item now,
      _ = false → (∀ entry ∈ item.alertHistory, _ → _ = _) ∧ Clean settings _ _ _))

end Promise

end DracVms.FleetAlerts
