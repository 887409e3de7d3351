import DracVms.CloudStorage.StorageResolver
import DracVms.Library.KeyedList
import DracVms.Library.Runs

namespace DracVms.KeySpaces

open List

open Json (Text)
open JsString (isBlank trim toLowerCase)
open KeyedList (lookup updateAt)
open StorageResolver (Endereco Modo)

/-! The keys of an installation. -/

def isSlash (c : Char) : Bool := c = '/'

def semBarras (text : Text) : Text := (text.dropWhile isSlash).rdropWhile isSlash

def joinS3Key (prefixo key : Text) : Text :=
  if semBarras prefixo = [] then semBarras key else semBarras prefixo ++ '/' :: semBarras key

/-- The columns that the key of an object is made of. -/
structure Recording where
  id : Text
  cameraId : Text
  filePath : Text

def buildCloudKey (recording : Recording) : Text :=
  let nome := recording.filePath.rtakeWhile fun c => c ≠ '/'
  let extensao :=
    if '.' ∈ nome then '.' :: nome.rtakeWhile fun c => c ≠ '.' else ".mp4".toList
  "recordings/".toList ++ recording.cameraId ++ '/' :: recording.id ++ extensao

/-- The beginning of the keys that `listObjectsPage('')` asks for. -/
def base (prefixo : Text) : Text := joinS3Key prefixo []

theorem joinS3Key_base (prefixo key : Text) :
    joinS3Key prefixo key = base prefixo ++ semBarras key := by
  unfold base joinS3Key
  split
  · rfl
  · rw [append_assoc]
    rfl

/-- No key that is written with one of them is listed with the other exactly when neither lies
within the other. -/
theorem apart_iff (first second : Text) :
    (∀ recording, ¬base second <+: joinS3Key first (buildCloudKey recording)) ∧
      (∀ recording, ¬base first <+: joinS3Key second (buildCloudKey recording)) ↔
      ¬base first <+: base second ∧ ¬base second <+: base first := by
  have within : ∀ {outer inner : Text} (recording : Recording), base outer <+: base inner →
      base outer <+: joinS3Key inner (buildCloudKey recording) := by
    intro outer inner recording nested
    rw [joinS3Key_base]
    exact nested.trans (prefix_append _ _)
  have either : ∀ {one other : Text} (recording : Recording),
      base one <+: joinS3Key other (buildCloudKey recording) →
        base one <+: base other ∨ base other <+: base one := by
    intro one other recording listed
    rw [joinS3Key_base] at listed
    exact prefix_or_prefix_of_prefix listed (prefix_append _ _)
  constructor
  · rintro ⟨clear, clear'⟩
    exact ⟨fun nested => clear' ⟨[], [], []⟩ (within _ nested),
      fun nested => clear ⟨[], [], []⟩ (within _ nested)⟩
  · rintro ⟨outside, outside'⟩
    refine ⟨?_, ?_⟩
    · intro recording listed
      exact (either recording listed).elim outside' outside
    · intro recording listed
      exact (either recording listed).elim outside outside'

/-! The endpoint that was typed. -/

def esquemaDe (texto : Text) : Option (Text × Text) :=
  if toLowerCase (texto.take 8) = "https://".toList then some ("https".toList, texto.drop 8)
  else if toLowerCase (texto.take 7) = "http://".toList then some ("http".toList, texto.drop 7)
  else none

def isLineEnd (c : Char) : Bool := c.val ∈ [10, 13, 0x2028, 0x2029]

/-- The scheme, if there is one, and the rest. -/
def partirEndpoint (bruto : Text) : Option Text × Text :=
  let texto := (trim bruto).rdropWhile isSlash
  match esquemaDe texto with
  | some (esquema, host) =>
    if host ≠ [] && host.all fun c => !isLineEnd c then (some esquema, host) else (none, texto)
  | none => (none, texto)

/-- Which of the two schemes is taken, where none was typed, is decided by who answers. -/
def resolverEndpoint (https : Bool) (bruto : Text) : Text :=
  match partirEndpoint bruto with
  | (some esquema, host) => esquema ++ "://".toList ++ host
  | (none, host) =>
    if host = [] then []
    else (if https then "https://".toList else "http://".toList) ++ host

/-! The configuration of one installation. -/

structure CloudStorage where
  enabled : Bool
  mode : Modo
  name : Text
  endereco : Endereco
  region : Text
  accessKeyId : Text
  uploadConcurrency : ℤ
  secretAccessKeyEncrypted : Text
  localWindowHours : ℤ
  forcePathStyle : Bool

def defaultConfig : CloudStorage where
  enabled := false
  mode := .tier
  name := []
  endereco := ⟨[], [], []⟩
  region := "us-east-1".toList
  accessKeyId := []
  uploadConcurrency := 6
  secretAccessKeyEncrypted := []
  localWindowHours := 24
  forcePathStyle := true

/-- What a request brings. A field that is there has its text, its truth if it can be read, or its
number if it is finite. -/
structure Payload where
  enabled : Option (Option Bool)
  mode : Option Text
  name : Option Text
  endpoint : Option Text
  region : Option Text
  bucket : Option Text
  prefixo : Option Text
  accessKeyId : Option Text
  secretAccessKey : Option Text
  uploadConcurrency : Option (Option ℚ)
  localWindowHours : Option (Option ℚ)
  forcePathStyle : Option (Option Bool)

/-- `{ ...previous, ...payload }`. -/
structure Source where
  enabled : Option Bool
  mode : Text
  name : Text
  endpoint : Text
  region : Text
  bucket : Text
  prefixo : Text
  accessKeyId : Text
  secretAccessKey : Text
  uploadConcurrency : Option ℚ
  localWindowHours : Option ℚ
  forcePathStyle : Option Bool

def modeName : Modo → Text
  | .tier => "tier".toList
  | .mount => "mount".toList

def readMode (mode : Text) : Option Modo :=
  [Modo.tier, .mount].find? fun known => modeName known = mode

def merge (previous : CloudStorage) (payload : Payload) : Source where
  enabled := payload.enabled.getD (some previous.enabled)
  mode := payload.mode.getD (modeName previous.mode)
  name := payload.name.getD previous.name
  endpoint := payload.endpoint.getD previous.endereco.endpoint
  region := payload.region.getD previous.region
  bucket := payload.bucket.getD previous.endereco.bucket
  prefixo := payload.prefixo.getD previous.endereco.prefixo
  accessKeyId := payload.accessKeyId.getD previous.accessKeyId
  secretAccessKey := payload.secretAccessKey.getD []
  uploadConcurrency := payload.uploadConcurrency.getD (some previous.uploadConcurrency)
  localWindowHours := payload.localWindowHours.getD (some previous.localWindowHours)
  forcePathStyle := payload.forcePathStyle.getD (some previous.forcePathStyle)

def readInt (value : Option ℚ) (min max : ℤ) : Option ℤ :=
  (value.map fun n => ⌊n + 1 / 2⌋).filter fun rounded => min ≤ rounded && rounded ≤ max

def ou (text padrao : Text) : Text := if text = [] then padrao else text

def normalizeCloudStorage (source : Source) (enabled : Bool) (endereco : Endereco)
    (accessKeyId secretAccessKeyEncrypted : Text) : CloudStorage where
  enabled := enabled
  mode := (readMode source.mode).getD .tier
  name := (trim source.name).take 80
  endereco := endereco
  region := ou (trim source.region) "us-east-1".toList
  accessKeyId := accessKeyId
  uploadConcurrency := (readInt source.uploadConcurrency 1 64).getD 6
  secretAccessKeyEncrypted := secretAccessKeyEncrypted
  localWindowHours := (readInt source.localWindowHours 1 720).getD 24
  forcePathStyle := source.forcePathStyle.getD true

def isEndpoint (endpoint : Text) : Bool :=
  (esquemaDe endpoint).any fun (_, rest) =>
    rest.head?.any fun c => !isSlash c && !isBlank c

def isBucketStart (c : Char) : Bool := c.isLower || c.isDigit

def isBucket (bucket : Text) : Bool :=
  bucket.head?.any isBucketStart &&
    (bucket.all fun c => isBucketStart c || c ∈ ['.', '_', '-']) && bucket.length ≤ 63

def isPrefixChar (c : Char) : Bool :=
  c.isAlphanum || c ∈ ['!', '_', '.', '*', '\'', '(', ')', '/', '-']

/-- What another installation has configured. -/
structure Uso where
  installationId : Text
  endereco : Endereco

def enabledErrors (endereco : Endereco) (accessKeyId secret : Text) : List Text :=
  (if endereco.endpoint = [] then ["endpoint é obrigatório para habilitar".toList]
    else if isEndpoint endereco.endpoint then [] else ["endpoint inválido".toList]) ++
  (if endereco.bucket = [] then ["bucket é obrigatório para habilitar".toList]
    else if isBucket endereco.bucket then []
    else ["bucket inválido: use apenas minúsculas, números, ponto, hífen e sublinhado ".toList ++
      "(até 63 caracteres)".toList]) ++
  (if accessKeyId = [] then ["accessKeyId é obrigatório para habilitar".toList] else []) ++
  if secret = [] then ["secretAccessKey é obrigatório para habilitar".toList] else []

/-- The address is compared with the others as a text. -/
def prefixErrors (endereco : Endereco) (installationId : Text) (prefixosEmUso : List Uso) :
    List Text :=
  (if endereco.prefixo = [] then
      ["prefixo é obrigatório para habilitar (isola esta instalação dentro do bucket)".toList]
    else if endereco.prefixo.all isPrefixChar then []
    else ["prefixo inválido: use apenas letras, números e - _ . ! * ' ( ) /".toList]) ++
  match prefixosEmUso.find? fun uso =>
      uso.installationId ≠ installationId && uso.endereco = endereco with
  | some colisao =>
    ["este endpoint+bucket+prefixo já é usado pela instalação \"".toList ++
      colisao.installationId ++
      "\" — dois clientes no mesmo espaço de chaves se apagam".toList]
  | none => []

inductive Validation where
  | invalid (errors : List Text)
  /-- The key of the secrets is missing or too weak. -/
  | unavailable
  | valid (value : CloudStorage)

/-- The prefix that is asked for. Where there is none, it is the id of the installation. -/
def prefixoDe (source : Source) (installationId : Text) : Text :=
  ou (semBarras (trim source.prefixo))
    (if source.enabled.getD false then trim installationId else [])

variable (encryptSecret decryptSecret : Text → Option Text)

def validateCloudStorage (source : Source) (existingSecret installationId : Text)
    (prefixosEmUso : List Uso) : Validation :=
  let enabled := source.enabled.getD false
  let endereco : Endereco :=
    ⟨trim source.endpoint, trim source.bucket, prefixoDe source installationId⟩
  let accessKeyId := trim source.accessKeyId
  let secret := ou (trim source.secretAccessKey) existingSecret
  let errors :=
    (if (readMode source.mode).isNone then ["mode deve ser um de: tier, mount".toList] else []) ++
    (if enabled then enabledErrors endereco accessKeyId secret ++
      prefixErrors endereco installationId prefixosEmUso else []) ++
    if (readInt source.localWindowHours 1 720).isNone then
      ["localWindowHours deve estar entre 1 e 720".toList] else []
  if errors ≠ [] then .invalid errors
  else match (if secret = [] then some [] else encryptSecret secret) with
    | none => .unavailable
    | some encrypted =>
      .valid (normalizeCloudStorage source enabled endereco accessKeyId encrypted)

/-! The Central, and the storages that the installations keep. -/

structure Installation where
  id : Text
  cloudStorage : CloudStorage
  /-- The addresses that were removed, the last ten of them. -/
  cloudStorageRemovals : List Endereco

inductive Resposta where
  | installationNotFound
  | storageSecretUnreadable
  | storageSecretUnavailable
  | invalidCloudStorage (errors : List Text)
  | ok (cloudStorage : CloudStorage)

def resolvido (https : Bool) (endpoint : Text) : Text :=
  if trim endpoint = [] then endpoint else ou (resolverEndpoint https endpoint) endpoint

def Payload.resolved (payload : Payload) (https : Bool) : Payload :=
  { payload with endpoint := payload.endpoint.map (resolvido https) }

def handlePatchCloudStorage (installations : List Installation) (id : Text) (payload : Payload)
    (https : Bool) : Resposta :=
  match lookup Installation.id installations id with
  | none => .installationNotFound
  | some item =>
    let previous := item.cloudStorage
    let opened := if previous.secretAccessKeyEncrypted = [] then some []
      else decryptSecret previous.secretAccessKeyEncrypted
    if opened.isNone && trim (payload.secretAccessKey.getD []) = [] then .storageSecretUnreadable
    else
      let prefixosEmUso := ((installations.filter fun outra => outra.id ≠ id).map fun outra =>
        (⟨outra.id, outra.cloudStorage.endereco⟩ : Uso)).filter fun uso =>
          uso.endereco.endpoint ≠ [] && uso.endereco.bucket ≠ []
      match validateCloudStorage encryptSecret (merge previous (payload.resolved https))
          (opened.getD []) id prefixosEmUso with
      | .invalid errors => .invalidCloudStorage errors
      | .unavailable => .storageSecretUnavailable
      | .valid value => .ok value

/-- What a heartbeat hands to the installation: nothing but a whole configuration. -/
def buildInstallationPayload (config : CloudStorage) : Option Endereco :=
  if config.enabled && config.endereco.endpoint ≠ [] && config.endereco.bucket ≠ [] &&
      config.accessKeyId ≠ [] && config.secretAccessKeyEncrypted ≠ [] then
    ((decryptSecret config.secretAccessKeyEncrypted).filter fun secret => secret ≠ []).map
      fun _ => config.endereco
  else none

structure System where
  installations : List Installation
  /-- The storages in the tables of the installations, each with the installation. -/
  storages : List (Text × Endereco)

def System.empty : System := ⟨[], []⟩

inductive Step where
  | enroll (id : Text)
  | patch (id : Text) (payload : Payload) (https : Bool)
  | delete (id : Text)
  /-- An installation receives what is configured for it. -/
  | heartbeat (id : Text)
  /-- An installation lets go of a storage. -/
  | purge (id : Text) (endereco : Endereco)

def configured (value : CloudStorage) (item : Installation) : Installation :=
  { item with cloudStorage := value }

/-- Nothing is removed where there is no storage. -/
def removed (item : Installation) : Installation :=
  let anterior := item.cloudStorage
  if anterior.endereco.endpoint = [] && anterior.endereco.bucket = [] && anterior.accessKeyId = []
  then item
  else {
    id := item.id
    cloudStorage := defaultConfig
    cloudStorageRemovals :=
      (item.cloudStorageRemovals ++ [anterior.endereco]).drop
        (item.cloudStorageRemovals.length + 1 - 10) }

def System.change (s : System) (id : Text) (change : Installation → Installation) : System :=
  { s with installations := updateAt Installation.id s.installations id change }

def step (s : System) : Step → System
  | .enroll id =>
    if s.installations.any fun item => item.id = id then s
    else { s with installations := s.installations ++ [⟨id, defaultConfig, []⟩] }
  | .patch id payload https =>
    match handlePatchCloudStorage encryptSecret decryptSecret s.installations id payload https with
    | .ok value => s.change id (configured value)
    | _ => s
  | .delete id => s.change id removed
  | .heartbeat id =>
    match (lookup Installation.id s.installations id).bind fun item =>
        buildInstallationPayload decryptSecret item.cloudStorage with
    | some endereco =>
      if (id, endereco) ∈ s.storages then s
      else { s with storages := s.storages ++ [(id, endereco)] }
    | none => s
  | .purge id endereco =>
    { s with storages := s.storages.filter fun storage => storage ≠ (id, endereco) }

/-! What the installations write and sweep. -/

/-- The installation has the storage configured, or still keeps it. -/
def Usa (s : System) (id : Text) (endereco : Endereco) : Prop :=
  (id, endereco) ∈ s.storages ∨ ∃ item ∈ s.installations, item.id = id ∧
    item.cloudStorage.enabled = true ∧ item.cloudStorage.endereco = endereco

variable {Server : Type} (server : Text → Server)

def SameBucket (first second : Endereco) : Prop :=
  server first.endpoint = server second.endpoint ∧ first.bucket = second.bucket

/-- No key that an installation writes is listed by the sweep of another one. -/
def Isolated (s : System) : Prop :=
  ∀ id other first second, id ≠ other → Usa s id first → Usa s other second →
    SameBucket server first second →
      ∀ recording, ¬base second.prefixo <+: joinS3Key first.prefixo (buildCloudKey recording)

/-- Neither prefix lies within the other. -/
def Apart (first second : Endereco) : Prop :=
  ¬base first.prefixo <+: base second.prefixo ∧ ¬base second.prefixo <+: base first.prefixo

/-- A request that is accepted, and that enables a storage, names one that lies apart from those
that the other installations use in the same bucket. -/
def Orderly (s : System) : Step → Prop
  | .patch id payload https =>
    match handlePatchCloudStorage encryptSecret decryptSecret s.installations id payload https with
    | .ok value => value.enabled = true → ∀ other endereco, id ≠ other → Usa s other endereco →
        SameBucket server value.endereco endereco → Apart value.endereco endereco
    | _ => True
  | _ => True

variable {server}

theorem SameBucket.symm {first second : Endereco} (same : SameBucket server first second) :
    SameBucket server second first :=
  ⟨same.1.symm, same.2.symm⟩

theorem isolated_iff (s : System) :
    Isolated server s ↔ ∀ id other first second, id ≠ other → Usa s id first →
      Usa s other second → SameBucket server first second → Apart first second := by
  constructor
  · intro isolated id other first second distinct uses uses' same
    apply (apart_iff first.prefixo second.prefixo).mp
    exact ⟨isolated id other first second distinct uses uses' same,
      isolated other id second first distinct.symm uses' uses same.symm⟩
  · intro apart id other first second distinct uses uses' same
    exact ((apart_iff first.prefixo second.prefixo).mpr
      (apart id other first second distinct uses uses' same)).1

theorem Isolated.fewer {s t : System} (isolated : Isolated server s)
    (fewer : ∀ id endereco, Usa t id endereco → Usa s id endereco) : Isolated server t := by
  intro id other first second distinct uses uses'
  exact isolated id other first second distinct (fewer _ _ uses) (fewer _ _ uses')

theorem usa_updateAt {s : System} {id other : Text} {endereco : Endereco}
    {change : Installation → Installation} (keeps : ∀ item, (change item).id = item.id)
    (uses : Usa (s.change id change) other endereco) :
    Usa s other endereco ∨ other = id ∧ ∃ item ∈ s.installations, item.id = id ∧
      (change item).cloudStorage.enabled = true ∧ (change item).cloudStorage.endereco = endereco := by
  rcases uses with kept | ⟨item, listed, named, enabled, address⟩
  · exact Or.inl (Or.inl kept)
  · obtain ⟨old, here, ⟨-, rfl⟩ | ⟨own, rfl⟩⟩ := KeyedList.of_mem_updateAt listed
    · exact Or.inl (Or.inr ⟨item, here, named, enabled, address⟩)
    · right
      rw [keeps] at named
      exact ⟨named.symm.trans own, old, here, own, enabled, address⟩

theorem usa_others {s : System} {id other : Text} {endereco : Endereco}
    {change : Installation → Installation} (distinct : id ≠ other) (uses : Usa s other endereco) :
    Usa (s.change id change) other endereco := by
  rcases uses with kept | ⟨item, listed, named, configured⟩
  · exact Or.inl kept
  · right
    refine ⟨item, ?_, named, configured⟩
    apply mem_map.mpr
    refine ⟨item, listed, if_neg ?_⟩
    intro own
    exact distinct (own.symm.trans named)

variable {encryptSecret decryptSecret}

theorem patch_known {installations : List Installation} {id : Text} {payload : Payload}
    {https : Bool} {value : CloudStorage}
    (accepted : handlePatchCloudStorage encryptSecret decryptSecret installations id payload https =
      .ok value) :
    ∃ item ∈ installations, item.id = id := by
  unfold handlePatchCloudStorage at accepted
  split at accepted
  · cases accepted
  · rename_i item found
    obtain ⟨listed, named⟩ := KeyedList.lookup_mem found
    exact ⟨item, listed, named⟩

theorem Isolated.configure {s : System} (isolated : Isolated server s) {id : Text}
    (known : ∃ item ∈ s.installations, item.id = id) (value : CloudStorage) :
    Isolated server (s.change id (configured value)) ↔
      (value.enabled = true → ∀ other endereco, id ≠ other → Usa s other endereco →
        SameBucket server value.endereco endereco → Apart value.endereco endereco) := by
  have news : ∀ {other : Text} {endereco : Endereco},
      Usa (s.change id (configured value)) other endereco →
        Usa s other endereco ∨ other = id ∧ value.enabled = true ∧ value.endereco = endereco := by
    intro other endereco uses
    have keeps : ∀ item, (configured value item).id = item.id := fun _ => rfl
    rcases usa_updateAt keeps uses with before | ⟨own, item, listed, named, enabled, address⟩
    · exact Or.inl before
    · exact Or.inr ⟨own, enabled, address⟩
  constructor
  · intro after enabled other endereco distinct uses same
    have own : Usa (s.change id (configured value)) id value.endereco := by
      obtain ⟨item, listed, named⟩ := known
      right
      refine ⟨configured value item, ?_, named, enabled, rfl⟩
      exact mem_map.mpr ⟨item, listed, if_pos named⟩
    exact (isolated_iff _).mp after id other value.endereco endereco distinct own
      (usa_others distinct uses) same
  · intro orderly
    rw [isolated_iff] at isolated ⊢
    intro one other first second distinct uses uses' same
    rcases news uses with before | ⟨rfl, enabled, rfl⟩
    · rcases news uses' with before' | ⟨rfl, enabled, rfl⟩
      · exact isolated one other first second distinct before before' same
      · exact (orderly enabled one first distinct.symm before same.symm).symm
    · rcases news uses' with before' | ⟨rfl, -, -⟩
      · exact orderly enabled other second distinct before' same
      · exact absurd rfl distinct

/-- The installations are kept apart, all along a run of the Central, exactly when every storage
that is enabled lies apart from those of the others. -/
theorem isolation_iff (steps : List Step) :
    (∀ n t, Runs.run (fun s a => some (step encryptSecret decryptSecret s a)) .empty
        (steps.take n) = some t → Isolated server t) ↔
      Runs.Allowed (fun s a => some (step encryptSecret decryptSecret s a))
        (Orderly encryptSecret decryptSecret server) .empty steps := by
  have starts : Isolated server .empty := by
    intro id other first second _ uses
    rcases uses with kept | ⟨item, listed, -⟩
    · cases kept
    · cases listed
  have holds : ∀ t, Isolated server t → Isolated server t := by
    intro t isolated
    exact isolated
  apply Runs.prefixes_iff_kept _ holds .empty _ steps _ starts (Runs.run_total _ _ _)
  rintro s a - t isolated taken
  cases taken
  have fewer : (∀ id endereco, Usa (step encryptSecret decryptSecret s a) id endereco →
      Usa s id endereco) → Orderly encryptSecret decryptSecret server s a →
      (Isolated server (step encryptSecret decryptSecret s a) ↔
        Orderly encryptSecret decryptSecret server s a) ∧
      (Orderly encryptSecret decryptSecret server s a →
        Isolated server (step encryptSecret decryptSecret s a)) := by
    intro uses orderly
    have after := isolated.fewer uses
    exact ⟨⟨fun _ => orderly, fun _ => after⟩, fun _ => after⟩
  have same : step encryptSecret decryptSecret s a = s →
      Orderly encryptSecret decryptSecret server s a →
      (Isolated server (step encryptSecret decryptSecret s a) ↔
        Orderly encryptSecret decryptSecret server s a) ∧
      (Orderly encryptSecret decryptSecret server s a →
        Isolated server (step encryptSecret decryptSecret s a)) := by
    intro unchanged
    apply fewer
    rw [unchanged]
    exact fun _ _ uses => uses
  cases a with
  | enroll id =>
    apply fewer _ trivial
    intro other endereco uses
    simp only [step] at uses
    split at uses
    · exact uses
    · rcases uses with kept | ⟨item, listed, named, enabled, address⟩
      · exact Or.inl kept
      · rcases mem_append.mp listed with old | new
        · exact Or.inr ⟨item, old, named, enabled, address⟩
        · rw [mem_singleton.mp new] at enabled
          cases enabled
  | patch id payload https =>
    cases answer : handlePatchCloudStorage encryptSecret decryptSecret s.installations id payload
        https with
    | ok value =>
      have after := isolated.configure (patch_known answer) value
      simp only [step, Orderly, answer]
      exact ⟨after, after.mpr⟩
    | installationNotFound =>
      exact same (by simp only [step, answer]) (by simp only [Orderly, answer])
    | storageSecretUnreadable =>
      exact same (by simp only [step, answer]) (by simp only [Orderly, answer])
    | storageSecretUnavailable =>
      exact same (by simp only [step, answer]) (by simp only [Orderly, answer])
    | invalidCloudStorage errors =>
      exact same (by simp only [step, answer]) (by simp only [Orderly, answer])
  | delete id =>
    apply fewer _ trivial
    intro other endereco uses
    have keeps : ∀ item, (removed item).id = item.id := by
      intro item
      simp only [removed]
      split <;> rfl
    rcases usa_updateAt keeps uses with before | ⟨rfl, item, listed, named, enabled, address⟩
    · exact before
    · simp only [removed] at enabled address
      split at enabled
      · rename_i nothing
        rw [if_pos nothing] at address
        exact Or.inr ⟨item, listed, named, enabled, address⟩
      · cases enabled
  | heartbeat id =>
    apply fewer _ trivial
    intro other endereco uses
    simp only [step] at uses
    split at uses
    · rename_i handed found
      split at uses
      · exact uses
      · rcases uses with kept | configured
        · rcases mem_append.mp kept with old | new
          · exact Or.inl old
          · obtain ⟨item, located, payload⟩ := Option.bind_eq_some_iff.mp found
            obtain ⟨listed, named⟩ := KeyedList.lookup_mem located
            cases mem_singleton.mp new
            unfold buildInstallationPayload at payload
            split at payload
            · rename_i whole
              simp only [Bool.and_eq_true] at whole
              obtain ⟨secret, -, same⟩ := Option.map_eq_some_iff.mp payload
              exact Or.inr ⟨item, listed, named, whole.1.1.1.1, same⟩
            · cases payload
        · exact Or.inr configured
    · exact uses
  | purge id endereco =>
    apply fewer _ trivial
    intro other address uses
    rcases uses with kept | configured
    · exact Or.inl (mem_filter.mp kept).1
    · exact Or.inr configured

/-! Two prefixes side by side, and one within the other. -/

/-- A request for the bucket `v` of one server. -/
def enabling (prefixo : Text) : Payload where
  enabled := some (some true)
  mode := none
  name := none
  endpoint := some "s3.lan".toList
  region := none
  bucket := some ['v']
  prefixo := some prefixo
  accessKeyId := some ['k']
  secretAccessKey := some ['s']
  uploadConcurrency := none
  localWindowHours := none
  forcePathStyle := none

def twoClients (first second : Text) : List Step :=
  [.enroll ['a'], .enroll ['b'], .patch ['a'] (enabling first) false,
    .patch ['b'] (enabling second) false, .heartbeat ['a'], .heartbeat ['b']]

/-- The sweep of the outer prefix lists what is written under the inner one. -/
theorem nested_swept : ¬∀ (steps : List Step) (s : System),
    Runs.run (fun s a => some (step some some s a)) .empty steps = some s →
      Isolated (fun endpoint => endpoint) s := by
  intro always
  have isolated := always (twoClients "rede".toList "rede/loja".toList) _ (Runs.run_total _ _ _)
  have used : (['b'], ⟨"http://s3.lan".toList, ['v'], "rede/loja".toList⟩) ∈
      ((twoClients "rede".toList "rede/loja".toList).foldl (step some some) .empty).storages := by
    decide +kernel
  have used' : (['a'], ⟨"http://s3.lan".toList, ['v'], "rede".toList⟩) ∈
      ((twoClients "rede".toList "rede/loja".toList).foldl (step some some) .empty).storages := by
    decide +kernel
  apply isolated ['b'] ['a'] _ _ (by decide) (Or.inl used) (Or.inl used') ⟨rfl, rfl⟩ ⟨[], [], []⟩
  decide +kernel

end DracVms.KeySpaces
