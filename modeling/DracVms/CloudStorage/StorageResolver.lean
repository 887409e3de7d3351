import DracVms.Database.Schema
import DracVms.Library.JsString

namespace DracVms.StorageResolver

open Json JsString Database

/-- The address of the objects, which is the identity of a storage. -/
structure Endereco where
  endpoint : Text
  bucket : Text
  prefixo : Text
  deriving DecidableEq

inductive Modo where
  | tier
  | mount
  deriving DecidableEq

inductive CloudStorageState where
  | configured
  | disabled
  | absent
  deriving DecidableEq

structure CloudStorageConfig where
  name : Text
  uploadConcurrency : Nat
  mode : Modo
  provider : Text
  endereco : Endereco
  region : Text
  accessKeyId : Text
  secretAccessKey : Text
  localWindowHours : Nat
  forcePathStyle : Bool

structure StorageResolvido extends CloudStorageConfig where
  id : Option Text

/-- A row of `CloudStorage`. -/
structure CloudStorage where
  id : Text
  name : Text
  provider : Text
  endereco : Endereco
  region : Text
  accessKeyId : Text
  secretAccessKeyEncrypted : Text
  forcePathStyle : Bool
  isActive : Bool
  createdAt : Instant

/-- A recording, with what no column holds: the address that its object was sent to, and whether the
storage there was purged. -/
structure Gravacao where
  row : Recording
  origem : Option Endereco
  expurgada : Bool

/-- What the Central last wrote, the two tables, and every id that `CloudStorage` ever had. -/
structure Banco where
  provisionado : Option CloudStorageConfig
  estado : CloudStorageState
  remocoes : List Endereco
  storages : List CloudStorage
  historico : List (Text × Endereco)
  gravacoes : List Gravacao

def ou (texto padrao : Text) : Text := if texto = [] then padrao else texto

def legado (b : Banco) : Option StorageResolvido :=
  b.provisionado.map fun cfg =>
    { cfg with name := ou cfg.name "Storage principal".toList, id := none }

def acharStorage (b : Banco) (id : Text) : Option CloudStorage :=
  b.storages.find? fun linha => linha.id = id

section Resolver

variable (decrypt : Text → Option Text)

/-- An archived storage: the mode and the window are those that decide nothing. -/
def materializar (registro : CloudStorage) : Option StorageResolvido :=
  (decrypt registro.secretAccessKeyEncrypted).map fun secret =>
    { name := registro.name
      uploadConcurrency := 6
      mode := .tier
      provider := registro.provider
      endereco := registro.endereco
      region := registro.region
      accessKeyId := registro.accessKeyId
      secretAccessKey := secret
      localWindowHours := 24
      forcePathStyle := registro.forcePathStyle
      id := some registro.id }

def storageDaGravacao (b : Banco) (cloudStorageId : Option Text) : Option StorageResolvido :=
  match cloudStorageId with
  | none | some [] => legado b
  | some id => (acharStorage b id).bind (materializar decrypt)

def comOperacao (linha : Option StorageResolvido) (config : StorageResolvido) :
    Option StorageResolvido :=
  linha.map fun linha =>
    { linha with
      mode := config.mode
      localWindowHours := config.localWindowHours
      uploadConcurrency := config.uploadConcurrency }

end Resolver

def nomeDesejado (config : StorageResolvido) : Text := ou config.name config.endereco.bucket

def dados (config : StorageResolvido) (cifrado : Text) (linha : CloudStorage) : CloudStorage :=
  { linha with
    endereco := config.endereco
    name := nomeDesejado config
    provider := ou config.provider ['s', '3']
    region := ou config.region "us-east-1".toList
    accessKeyId := config.accessKeyId
    secretAccessKeyEncrypted := cifrado
    forcePathStyle := config.forcePathStyle
    isActive := true }

def novaLinha (config : StorageResolvido) (id cifrado : Text) (agora : Instant) : CloudStorage :=
  dados config cifrado
    { id := id
      name := []
      provider := []
      endereco := config.endereco
      region := []
      accessKeyId := []
      secretAccessKeyEncrypted := []
      forcePathStyle := true
      isActive := true
      createdAt := agora }

def desativar (linhas : List CloudStorage) : List CloudStorage :=
  linhas.map fun linha => { linha with isActive := false }

def mudarStorage (linhas : List CloudStorage) (id : Text) (mudar : CloudStorage → CloudStorage) :
    List CloudStorage :=
  linhas.map fun linha => if linha.id = id then mudar linha else linha

def ativar (linhas : List CloudStorage) (id : Text) : List CloudStorage :=
  mudarStorage (desativar linhas) id fun linha => { linha with isActive := true }

def noStorage (storage : Option Text) (g : Gravacao) : Bool :=
  decide (g.row.cloudStorageId = storage)

def ancorar (alvo : Text) (g : Gravacao) : Gravacao :=
  if noStorage none g && g.row.cloudKey.isSome then
    { g with row := { g.row with cloudStorageId := some alvo } }
  else g

def semLastro (storage : Text) (g : Gravacao) : Bool :=
  noStorage (some storage) g && g.row.localDeletedAt.isSome

def semNuvem (storage : Text) (g : Gravacao) : Gravacao :=
  if noStorage (some storage) g then
    { g with row := { g.row with
      cloudKey := none
      cloudUploadedAt := none
      cloudStorageId := none
      cloudMissingSince := none } }
  else g

def esvaziada (storage : Text) (g : Gravacao) : Gravacao :=
  if noStorage (some storage) g then
    { g with row := { g.row with cloudKey := none, cloudUploadedAt := none } }
  else g

/-- `onDelete: SetNull` -/
def semReferencia (storage : Text) (expurgo : Bool) (g : Gravacao) : Gravacao :=
  if noStorage (some storage) g then
    { g with
      row := { g.row with cloudStorageId := none }
      expurgada := g.expurgada || expurgo }
  else g

def apagarStorage (b : Banco) (id : Text) (expurgo : Bool) : Banco :=
  if id ∈ b.storages.map CloudStorage.id then
    { b with
      storages := b.storages.filter fun linha => linha.id ≠ id
      gravacoes := b.gravacoes.map (semReferencia id expurgo) }
  else b

/-- The rows that `findFirst` may answer with. -/
def noEndereco (b : Banco) (endereco : Endereco) : List CloudStorage :=
  b.storages.filter fun linha => linha.endereco = endereco

def aparar (alvo : Endereco) : Endereco :=
  ⟨trim alvo.endpoint, trim alvo.bucket, trim alvo.prefixo⟩

def lapide (alvo : Endereco) : Text :=
  alvo.endpoint ++ '|' :: alvo.bucket ++ '|' :: alvo.prefixo

def maisRecentes (linhas : List CloudStorage) : List CloudStorage :=
  (linhas.insertionSort fun a b => b.createdAt ≤ a.createdAt).take 20

/-- Where a call stands: the `await` that comes next, with what the call has read. -/
inductive Chamada where
  | lendo
  | procurando (config : StorageResolvido)
  | atualizando (config : StorageResolvido) (existente : CloudStorage)
  | contando (config : StorageResolvido) (existente : Option CloudStorage)
  | registrando (config : StorageResolvido) (existente : Option CloudStorage)
      (primeiroCadastro : Bool)
  | relendo (config : StorageResolvido) (id : Text)
  | semStorageProvisionado
  | buscandoAtivo (estado : CloudStorageState)
  | pausando
  | lendoLapides (ativo : Bool)
  | elegendo (ativo : Bool) (lapides : List Text)
  | promovendo (candidato : CloudStorage) (resolvido : StorageResolvido)
  | devolvida (destino : StorageResolvido)
  | expurgando (alvos : List Endereco)
  | conferindo (linha : CloudStorage) (alvos : List Endereco)
  | removendo (linha : CloudStorage) (alvos : List Endereco)
  | limpando (linha : CloudStorage) (alvos : List Endereco)
  | apagando (linha : CloudStorage) (alvos : List Endereco)
  | lendoCadastro (id : Text) (forcar : Bool)
  | contandoCadastro (id : Text) (forcar : Bool)
  | apagandoCadastro (id : Text)
  | lendoEsvaziar (id confirmacao : Text)
  | esvaziando (id : Text)

/-- What the database answers: the row of a `findFirst`, or the id, ciphertext and time of a write. -/
inductive Resposta where
  | seguir
  | achar (id : Option Text)
  | gravar (gravou : Bool) (id cifrado : Text) (agora : Instant)
  | falhar

section Chamadas

variable (decrypt : Text → Option Text)

def devolver (destino : Option StorageResolvido) : Option Chamada := destino.map Chamada.devolvida

def caminhoQuente (config : StorageResolvido) (existente : CloudStorage) : Bool :=
  existente.isActive && decide (existente.accessKeyId = config.accessKeyId)

def precisaTrocarSegredo (config : StorageResolvido) (existente : CloudStorage) : Bool :=
  decide (decrypt existente.secretAccessKeyEncrypted ≠ some config.secretAccessKey)

def precisaTrocarNome (config : StorageResolvido) (existente : CloudStorage) : Bool :=
  decide (existente.name ≠ nomeDesejado config)

def dadosNovos (config : StorageResolvido) (cifrado : Text) (existente linha : CloudStorage) :
    CloudStorage :=
  { linha with
    name := if precisaTrocarNome config existente then nomeDesejado config else linha.name
    secretAccessKeyEncrypted :=
      if precisaTrocarSegredo decrypt config existente then cifrado
      else linha.secretAccessKeyEncrypted }

def depoisDeAchar (config : StorageResolvido) (existente : CloudStorage) : Option Chamada :=
  if caminhoQuente config existente then
    if precisaTrocarSegredo decrypt config existente || precisaTrocarNome config existente then
      some (.atualizando config existente)
    else devolver (comOperacao (materializar decrypt existente) config)
  else some (.contando config (some existente))

/-- An id that the database makes: it never had it before. -/
def IdNovo (b : Banco) (id : Text) : Prop := id ≠ [] ∧ id ∉ b.historico.map Prod.fst

instance (b : Banco) (id : Text) : Decidable (IdNovo b id) := inferInstanceAs (Decidable (_ ∧ _))

/-- The row that the transaction updates is still there. -/
def alvoExiste (b : Banco) (existente : Option CloudStorage) : Bool :=
  existente.all fun linha => decide (linha.id ∈ b.storages.map CloudStorage.id)

/-- The transaction of `reconciliar`; it rolls back when the row to update is gone. -/
def registrar (b : Banco) (config : StorageResolvido) (existente : Option CloudStorage)
    (primeiroCadastro : Bool) (id cifrado : Text) (agora : Instant) : Banco :=
  let alvo := (existente.map CloudStorage.id).getD id
  { b with
    storages :=
      match existente with
      | some linha => mudarStorage (desativar b.storages) linha.id (dados config cifrado)
      | none => desativar b.storages ++ [novaLinha config id cifrado agora]
    historico :=
      match existente with
      | some _ => b.historico
      | none => (id, config.endereco) :: b.historico
    gravacoes := if primeiroCadastro then b.gravacoes.map (ancorar alvo) else b.gravacoes }

def pausar (ativo : Bool) : Option Chamada := if ativo then some .pausando else none

def depoisDoAtivo (estado : CloudStorageState) (ativo : Bool) : Option Chamada :=
  if estado = .absent then some (.lendoLapides ativo) else pausar ativo

/-- `storageParaEscrita`, which is `reconciliar` or `semStorageProvisionado`. -/
def passoDaEscrita (b : Banco) : Chamada → Resposta → Option (Banco × Option Chamada)
  | .lendo, .seguir =>
    match legado b with
    | some config => some (b, some (.procurando config))
    | none => some (b, some .semStorageProvisionado)
  | .lendo, .falhar => some (b, some .semStorageProvisionado)
  | .procurando config, .achar none =>
    if noEndereco b config.endereco = [] then some (b, some (.contando config none)) else none
  | .procurando config, .achar (some id) =>
    match (noEndereco b config.endereco).find? fun linha => linha.id = id with
    | some existente => some (b, depoisDeAchar decrypt config existente)
    | none => none
  | .atualizando config existente, .gravar gravou _ cifrado _ =>
    if decrypt cifrado = some config.secretAccessKey then
      let mudar := dadosNovos decrypt config cifrado existente
      let depois :=
        if gravou then { b with storages := mudarStorage b.storages existente.id mudar } else b
      some (depois, devolver (comOperacao (materializar decrypt (mudar existente)) config))
    else none
  | .contando config existente, .seguir =>
    some (b, some (.registrando config existente b.storages.isEmpty))
  | .registrando config existente primeiroCadastro, .gravar true id cifrado agora =>
    if decrypt cifrado = some config.secretAccessKey ∧ (existente = none → IdNovo b id) then
      if alvoExiste b existente then
        some (registrar b config existente primeiroCadastro id cifrado agora,
          some (.relendo config ((existente.map CloudStorage.id).getD id)))
      else some (b, none)
    else none
  | .relendo config id, .seguir =>
    some (b, devolver (comOperacao ((acharStorage b id).bind (materializar decrypt)) config))
  | .semStorageProvisionado, .seguir => some (b, some (.buscandoAtivo b.estado))
  | .semStorageProvisionado, .falhar => some (b, some (.buscandoAtivo .disabled))
  | .buscandoAtivo estado, .seguir =>
    some (b, depoisDoAtivo estado (b.storages.any CloudStorage.isActive))
  | .buscandoAtivo estado, .falhar => some (b, depoisDoAtivo estado false)
  | .pausando, .seguir => some ({ b with storages := desativar b.storages }, none)
  | .lendoLapides ativo, .seguir =>
    some (b, some (.elegendo ativo (b.remocoes.map fun alvo => lapide (aparar alvo))))
  | .lendoLapides ativo, .falhar => some (b, some (.elegendo ativo []))
  | .elegendo ativo lapides, .seguir =>
    match (maisRecentes b.storages).find? fun c => decide (lapide c.endereco ∉ lapides) with
    | none => some (b, pausar ativo)
    | some candidato =>
      match materializar decrypt candidato with
      | none => some (b, none)
      | some resolvido =>
        if candidato.isActive then some (b, some (.devolvida resolvido))
        else some (b, some (.promovendo candidato resolvido))
  | .elegendo ativo _, .falhar => some (b, pausar ativo)
  | .promovendo candidato resolvido, .seguir =>
    if candidato.id ∈ b.storages.map CloudStorage.id then
      some ({ b with storages := ativar b.storages candidato.id }, some (.devolvida resolvido))
    else some (b, some (.devolvida resolvido))
  | .promovendo _ resolvido, .falhar => some (b, some (.devolvida resolvido))
  | .devolvida _, .seguir => some (b, none)
  | .procurando _, .falhar | .contando _ _, .falhar | .registrando _ _ _, .falhar
  | .relendo _ _, .falhar | .pausando, .falhar => some (b, none)
  | _, _ => none

/-- `expurgarStoragesRemovidos`: an error in the middle of a storage leaves it for the next time. -/
def passoDoExpurgo (b : Banco) : Chamada → Resposta → Option (Banco × Option Chamada)
  | .expurgando [], _ => some (b, none)
  | .expurgando (alvo :: alvos), .achar id =>
    if alvo.endpoint = [] ∨ alvo.bucket = [] then some (b, some (.expurgando alvos))
    else
      match id with
      | none => if noEndereco b alvo = [] then some (b, some (.expurgando alvos)) else none
      | some id =>
        match (noEndereco b alvo).find? fun linha => linha.id = id with
        | some linha => some (b, some (.conferindo linha alvos))
        | none => none
  | .conferindo linha alvos, .seguir =>
    if (legado b).any fun provisionado => decide (provisionado.endereco = linha.endereco) then
      some (b, some (.expurgando alvos))
    else some (b, some (.removendo linha alvos))
  | .conferindo linha alvos, .falhar => some (b, some (.removendo linha alvos))
  | .removendo linha alvos, .seguir =>
    some ({ b with gravacoes := b.gravacoes.filter fun g => !semLastro linha.id g },
      some (.limpando linha alvos))
  | .limpando linha alvos, .seguir =>
    some ({ b with gravacoes := b.gravacoes.map (semNuvem linha.id) }, some (.apagando linha alvos))
  | .apagando linha alvos, .seguir =>
    some (apagarStorage b linha.id true, some (.expurgando alvos))
  | .expurgando (_ :: alvos), .falhar | .removendo _ alvos, .falhar | .limpando _ alvos, .falhar
  | .apagando _ alvos, .falhar => some (b, some (.expurgando alvos))
  | _, _ => none

/-- `remover` and `esvaziar`, of the operator. -/
def passoDoCadastro (b : Banco) : Chamada → Resposta → Option (Banco × Option Chamada)
  | .lendoCadastro id forcar, .seguir =>
    match acharStorage b id with
    | some linha =>
      some (b, if linha.isActive then none else some (.contandoCadastro id forcar))
    | none => some (b, none)
  | .contandoCadastro id forcar, .seguir =>
    let pendentes := b.gravacoes.filter fun g => noStorage (some id) g && g.row.cloudKey.isSome
    if 0 < pendentes.length ∧ ¬ forcar then some (b, none)
    else some (b, some (.apagandoCadastro id))
  | .apagandoCadastro id, .seguir => some (apagarStorage b id false, none)
  | .lendoEsvaziar id confirmacao, .seguir =>
    match acharStorage b id with
    | some linha =>
      some (b,
        if linha.isActive || decide (confirmacao ≠ linha.endereco.bucket) ||
            (materializar decrypt linha).isNone then none
        else some (.esvaziando id))
    | none => some (b, none)
  | .esvaziando id, .seguir =>
    some ({ b with gravacoes := b.gravacoes.map (esvaziada id) }, none)
  | .lendoCadastro _ _, .falhar | .contandoCadastro _ _, .falhar | .apagandoCadastro _, .falhar
  | .lendoEsvaziar _ _, .falhar | .esvaziando _, .falhar => some (b, none)
  | _, _ => none

def avancar (b : Banco) (c : Chamada) (resposta : Resposta) : Option (Banco × Option Chamada) :=
  match passoDaEscrita decrypt b c resposta with
  | some depois => some depois
  | none =>
    match passoDoExpurgo b c resposta with
    | some depois => some depois
    | none => passoDoCadastro decrypt b c resposta

end Chamadas

/-- The database, and the calls that are under way. -/
structure Sistema where
  banco : Banco
  chamadas : List Chamada

inductive Pedido where
  | storageParaEscrita
  | expurgarStoragesRemovidos
  | remover (id : Text) (forcar : Bool)
  | esvaziar (id confirmacao : Text)

inductive Passo where
  | provisionar (config : Option CloudStorageConfig)
  | mudarEstado (estado : CloudStorageState)
  | mudarRemocoes (remocoes : List Endereco)
  | pedir (pedido : Pedido)
  | responder (i : Nat) (resposta : Resposta)
  | enviar (i : Nat) (gravacao chave : Text) (agora : Instant)
  | gravar (row : Recording)
  | excluir (id : Text)

def iniciar (b : Banco) : Pedido → Chamada
  | .storageParaEscrita => .lendo
  | .expurgarStoragesRemovidos => .expurgando (b.remocoes.map aparar)
  | .remover id forcar => .lendoCadastro id forcar
  | .esvaziar id confirmacao => .lendoEsvaziar id confirmacao

/-- `cloudStorageId` is a foreign key, or null. -/
def StorageExiste (b : Banco) (storage : Option Text) : Prop :=
  ∀ id, storage = some id → id ∈ b.storages.map CloudStorage.id

instance (b : Banco) (storage : Option Text) : Decidable (StorageExiste b storage) :=
  decidable_of_iff ((storage.all fun id => decide (id ∈ b.storages.map CloudStorage.id)) = true) (by
    cases storage with
    | none => simp [StorageExiste]
    | some id => simp [StorageExiste])

def enviada (destino : StorageResolvido) (chave : Text) (agora : Instant) (g : Gravacao) : Gravacao :=
  { row := { g.row with
      cloudKey := some chave
      cloudUploadedAt := some agora
      cloudStorageId := destino.id }
    origem := some destino.endereco
    expurgada := false }

def mudarGravacao (gravacoes : List Gravacao) (id : Text) (mudar : Gravacao → Gravacao) :
    List Gravacao :=
  gravacoes.map fun g => if g.row.id = id then mudar g else g

def passo (decrypt : Text → Option Text) (s : Sistema) : Passo → Option Sistema
  | .provisionar config => some { s with banco := { s.banco with provisionado := config } }
  | .mudarEstado estado => some { s with banco := { s.banco with estado := estado } }
  | .mudarRemocoes remocoes => some { s with banco := { s.banco with remocoes := remocoes } }
  | .pedir pedido => some { s with chamadas := s.chamadas ++ [iniciar s.banco pedido] }
  | .responder i resposta =>
    match s.chamadas[i]? with
    | some c =>
      (avancar decrypt s.banco c resposta).map fun depois =>
        { banco := depois.1
          chamadas :=
            match depois.2 with
            | some seguinte => s.chamadas.set i seguinte
            | none => s.chamadas.eraseIdx i }
    | none => none
  | .enviar i gravacao chave agora =>
    match s.chamadas[i]? with
    | some (.devolvida destino) =>
      if StorageExiste s.banco destino.id then
        some { s with banco := { s.banco with
          gravacoes := mudarGravacao s.banco.gravacoes gravacao (enviada destino chave agora) } }
      else none
    | _ => none
  | .gravar row =>
    if row.cloudKey = none ∧ row.cloudStorageId = none then
      some { s with banco := { s.banco with
        gravacoes := s.banco.gravacoes ++ [⟨row, none, false⟩] } }
    else none
  | .excluir id =>
    some { s with banco := { s.banco with
      gravacoes := s.banco.gravacoes.filter fun g => g.row.id ≠ id } }

end DracVms.StorageResolver
