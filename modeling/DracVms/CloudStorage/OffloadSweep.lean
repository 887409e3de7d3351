import DracVms.Database.Schema

namespace DracVms.OffloadSweep

open Json Database

/-- The part of a row that the offload takes with it. -/
structure Pendente where
  id : Text
  cameraId : Text
  filePath : Text

/-- The extension with its dot, of the last component of the path. -/
def extensao (filePath : Text) : Text :=
  let nome := (filePath.reverse.takeWhile (· ≠ '/')).reverse
  if '.' ∈ nome then '.' :: (nome.reverse.takeWhile (· ≠ '.')).reverse else ".mp4".toList

def buildCloudKey (rec : Pendente) : Text :=
  "recordings/".toList ++ rec.cameraId ++ ['/'] ++ rec.id ++ extensao rec.filePath

structure ConfirmacaoHead where
  verificavel : Bool
  existe : Bool
  contentLength : Option Nat

inductive Veredito where
  | ok
  | inverificavel
  | objetoAusente
  | tamanhoDivergente
  deriving DecidableEq

def avaliarConfirmacao (confirmado : ConfirmacaoHead) (tamanhoEnviado : Nat) : Veredito :=
  if !confirmado.verificavel then .inverificavel
  else if !confirmado.existe then .objetoAusente
  else if confirmado.contentLength.any (· ≠ tamanhoEnviado) then .tamanhoDivergente
  else .ok

/-- How far the upload of one recording is. -/
inductive Fase where
  | retirado
  | medido (tamanho : Nat)
  | enviado (tamanho : Nat)
  | confirmado
  deriving DecidableEq

structure Envio where
  gravacao : Pendente
  fase : Fase

structure Storage where
  id : Option Text
  direto : Bool
  localWindowHours : Nat
  uploadConcurrency : Nat

structure StoragePolicy where
  enabled : Bool
  tipos : List Text
  keepLocalCopy : Bool

/-- One cycle at a time: `running` is set in every phase but the first. -/
inductive Ciclo where
  | parado
  | enviando (destino : Storage) (fila : List Pendente) (emVoo : List Envio)
  | podando (candidatas : List Pendente)
  | marcando (rec : Pendente) (candidatas : List Pendente)

/-- Where a sweep stands: the storages still to come, and its place in the current one. -/
structure Progresso where
  restantes : List (Option Text)
  storage : Option Text
  formatoProvado : Bool
  removidos : Nat
  token : Bool

inductive Varredura where
  | parada
  | entreStorages (restantes : List (Option Text)) (removidos : Nat)
  | entrePaginas (p : Progresso)
  | listada (p : Progresso) (chaves : List Text)
  | contando (p : Progresso) (chaves : List Text)
  | apagando (p : Progresso) (chaves protegidas : List Text)

inductive Acao where
  | iniciarCiclo (destino : Storage) (politica : StoragePolicy) (contou : Bool)
  | puxar
  | medir (i : Nat)
  | enviar (i bytes : Nat)
  | conferir (i : Nat) (verificavel informaTamanho : Bool)
  | registrar (i : Nat) (agora : Instant)
  | falhar (i : Nat)
  | iniciarPoda (politica : StoragePolicy) (agora : Instant)
  | removerLocal (falha : Bool)
  | marcarRemovido (agora : Instant)
  | encerrarCiclo
  | iniciarVarredura (storages : List (Option Text))
  | listarPagina (chaves : List Text) (temMais : Bool)
  | procurarDonos
  | contarDonos
  | apagar (apagou respondeu : Bool)
  | fimDaPagina
  | falharVarredura
  | gravar (row : Recording) (bytes : Nat)
  | excluir (id : Text)

structure Limites where
  batch : Nat
  loteMaximo : Nat
  teto : Nat

section Sistema

variable {Place : Type}

/-- The database, the disk, the buckets, and where the two loops stand. -/
structure Estado (Place : Type) where
  linhas : List Recording
  arquivos : Text → Option Nat
  objetos : Place → Text → Option Nat
  ciclo : Ciclo
  varredura : Varredura
  inverificaveis : List Text

variable [DecidableEq Place] (limites : Limites) (placeOf : Option Text → Place)

def filtroPendente (politica : StoragePolicy) (row : Recording) : Bool :=
  row.cloudKey.isNone && decide (row.triggerMode ∈ politica.tipos)

/-- A long queue is sent in larger batches. -/
def lote (pendentesTotal : Nat) : Nat :=
  if limites.batch * 2 < pendentesTotal then
    min limites.loteMaximo (max limites.batch ((pendentesTotal + 3) / 4))
  else limites.batch

def pendenteDe (row : Recording) : Pendente := ⟨row.id, row.cameraId, row.filePath⟩

def pendentes (s : Estado Place) (politica : StoragePolicy) (contou : Bool) : List Pendente :=
  let encontrados := s.linhas.filter (filtroPendente politica)
  let total := if contou then encontrados.length else 0
  if politica.enabled ∧ politica.tipos ≠ [] then
    (((byStart encontrados).take (lote limites total)).map pendenteDe).filter
      fun rec => rec.id ∉ s.inverificaveis
  else []

def concorrencia (destino : Storage) : Nat :=
  let pedida := if destino.uploadConcurrency = 0 then 6 else destino.uploadConcurrency
  max 1 (min 64 pedida)

def candidataDaPoda (corte : Int) (row : Recording) : Bool :=
  row.cloudKey.isSome && row.cloudUploadedAt.any (fun t => decide ((t : Int) < corte)) &&
    row.localDeletedAt.isNone && row.cloudMissingSince.isNone

def corteDaPoda (destino : Storage) (agora : Instant) : Int :=
  (agora : Int) - (if destino.direto then 0 else destino.localWindowHours) * 3600000

def candidatasDaPoda (s : Estado Place) (destino : Storage) (politica : StoragePolicy)
    (agora : Instant) : List Pendente :=
  if politica.keepLocalCopy ∧ ¬ destino.direto then []
  else ((byStart (s.linhas.filter (candidataDaPoda (corteDaPoda destino agora)))).take 200).map
    pendenteDe

def atualizarEnvio (s : Estado Place) (destino : Storage) (fila : List Pendente)
    (emVoo : List Envio) (i : Nat) (e : Envio) : Estado Place :=
  { s with ciclo := .enviando destino fila (emVoo.set i e) }

def largarEnvio (s : Estado Place) (destino : Storage) (fila : List Pendente)
    (emVoo : List Envio) (i : Nat) : Estado Place :=
  { s with ciclo := .enviando destino fila (emVoo.eraseIdx i) }

def guardarObjeto (objetos : Place → Text → Option Nat) (place : Place) (chave : Text)
    (conteudo : Option Nat) : Place → Text → Option Nat :=
  fun p k => if p = place ∧ k = chave then conteudo else objetos p k

def guardarArquivo (arquivos : Text → Option Nat) (caminho : Text) (conteudo : Option Nat) :
    Text → Option Nat :=
  fun c => if c = caminho then conteudo else arquivos c

/-- What the HEAD of an object answers, when it is allowed to. -/
def headObject (s : Estado Place) (place : Place) (chave : Text)
    (verificavel informaTamanho : Bool) : ConfirmacaoHead where
  verificavel := verificavel
  existe := (s.objetos place chave).isSome
  contentLength := if informaTamanho then s.objetos place chave else none

/-- The steps of `runOnce`: `uploadPending`, with its workers, and then `pruneUploaded`. -/
def passoDoCiclo (s : Estado Place) : Acao → Option (Estado Place)
  | .iniciarCiclo destino politica contou =>
    match s.ciclo with
    | .parado =>
      some { s with ciclo := .enviando destino (pendentes limites s politica contou) [] }
    | _ => none
  | .puxar =>
    match s.ciclo with
    | .enviando destino (rec :: fila) emVoo =>
      if emVoo.length < concorrencia destino then
        some { s with ciclo := .enviando destino fila (emVoo ++ [⟨rec, .retirado⟩]) }
      else none
    | _ => none
  | .medir i =>
    match s.ciclo with
    | .enviando destino fila emVoo =>
      match emVoo[i]? with
      | some ⟨rec, .retirado⟩ =>
        match s.arquivos rec.filePath with
        | some (tamanho + 1) =>
          some (atualizarEnvio s destino fila emVoo i ⟨rec, .medido (tamanho + 1)⟩)
        | _ => some (largarEnvio s destino fila emVoo i)
      | _ => none
    | _ => none
  | .enviar i bytes =>
    match s.ciclo with
    | .enviando destino fila emVoo =>
      match emVoo[i]? with
      | some ⟨rec, .medido tamanho⟩ =>
        let enviado := atualizarEnvio s destino fila emVoo i ⟨rec, .enviado tamanho⟩
        some { enviado with
          objetos := guardarObjeto s.objetos (placeOf destino.id) (buildCloudKey rec) (some bytes) }
      | _ => none
    | _ => none
  | .conferir i verificavel informaTamanho =>
    match s.ciclo with
    | .enviando destino fila emVoo =>
      match emVoo[i]? with
      | some ⟨rec, .enviado tamanho⟩ =>
        let confirmado := headObject s (placeOf destino.id) (buildCloudKey rec) verificavel
          informaTamanho
        match avaliarConfirmacao confirmado tamanho with
        | .ok => some (atualizarEnvio s destino fila emVoo i ⟨rec, .confirmado⟩)
        | .inverificavel =>
          some { largarEnvio s destino fila emVoo i with
            inverificaveis := rec.id :: s.inverificaveis }
        | _ => some (largarEnvio s destino fila emVoo i)
      | _ => none
    | _ => none
  | .registrar i agora =>
    match s.ciclo with
    | .enviando destino fila emVoo =>
      match emVoo[i]? with
      | some ⟨rec, .confirmado⟩ =>
        some { largarEnvio s destino fila emVoo i with
          linhas := updateRow s.linhas rec.id fun row =>
            { row with
              cloudKey := some (buildCloudKey rec)
              cloudUploadedAt := some agora
              cloudStorageId := destino.id } }
      | _ => none
    | _ => none
  | .falhar i =>
    match s.ciclo with
    | .enviando destino fila emVoo =>
      if i < emVoo.length then some (largarEnvio s destino fila emVoo i) else none
    | _ => none
  | .iniciarPoda politica agora =>
    match s.ciclo with
    | .enviando destino [] [] =>
      some { s with ciclo := .podando (candidatasDaPoda s destino politica agora) }
    | _ => none
  | .removerLocal falha =>
    match s.ciclo with
    | .podando (rec :: candidatas) =>
      if falha then some { s with ciclo := .podando candidatas }
      else some { s with
        ciclo := .marcando rec candidatas
        arquivos := guardarArquivo s.arquivos rec.filePath none }
    | _ => none
  | .marcarRemovido agora =>
    match s.ciclo with
    | .marcando rec candidatas =>
      if rec.id ∈ s.linhas.map Recording.id then
        some { s with
          ciclo := .podando candidatas
          linhas := updateRow s.linhas rec.id fun row =>
            { row with localDeletedAt := some agora } }
      else some { s with ciclo := .parado }
    | _ => none
  | .encerrarCiclo =>
    match s.ciclo with
    | .podando _ => some { s with ciclo := .parado }
    | _ => none
  | _ => none

/-- Past a page: the next one, unless it was the last or the ceiling is reached. -/
def avancar (p : Progresso) : Varredura :=
  if p.token ∧ p.removidos < limites.teto then .entrePaginas p
  else .entreStorages p.restantes p.removidos

def receberPagina (p : Progresso) (chaves : List Text) (temMais : Bool) : Varredura :=
  let p := { p with token := temMais }
  if chaves = [] then avancar limites p else .listada p chaves

/-- The keys of the page that a row of this storage has. -/
def comDono (linhas : List Recording) (storage : Option Text) (chaves : List Text) : List Text :=
  (linhas.filter fun row => row.cloudStorageId = storage ∧ row.cloudKey.any (· ∈ chaves)).filterMap
    Recording.cloudKey

def temDonosNoBanco (linhas : List Recording) (storage : Option Text) : Bool :=
  linhas.any fun row => decide (row.cloudStorageId = storage) && row.cloudKey.isSome

/-- The steps of `cleanupOrphanCloudObjects`. -/
def passoDaVarredura (s : Estado Place) : Acao → Option (Estado Place)
  | .iniciarVarredura storages =>
    match s.varredura with
    | .parada => some { s with varredura := .entreStorages storages 0 }
    | _ => none
  | .listarPagina chaves temMais =>
    match s.varredura with
    | .entreStorages (storage :: restantes) removidos =>
      if removidos < limites.teto then
        some { s with
          varredura := receberPagina limites ⟨restantes, storage, false, removidos, false⟩ chaves
            temMais }
      else none
    | .entrePaginas p => some { s with varredura := receberPagina limites p chaves temMais }
    | _ => none
  | .procurarDonos =>
    match s.varredura with
    | .listada p chaves =>
      let protegidas := comDono s.linhas p.storage chaves
      if protegidas ≠ [] ∨ p.formatoProvado then
        some { s with
          varredura := .apagando { p with formatoProvado := true } chaves protegidas }
      else some { s with varredura := .contando p chaves }
    | _ => none
  | .contarDonos =>
    match s.varredura with
    | .contando p chaves =>
      if temDonosNoBanco s.linhas p.storage then
        some { s with varredura := .entreStorages p.restantes p.removidos }
      else some { s with varredura := .apagando p chaves [] }
    | _ => none
  | .apagar apagou respondeu =>
    match s.varredura with
    | .apagando p (chave :: chaves) protegidas =>
      if p.removidos < limites.teto then
        if chave ∈ protegidas then some { s with varredura := .apagando p chaves protegidas }
        else
          let contados := if respondeu then p.removidos + 1 else p.removidos
          some { s with
            varredura := .apagando { p with removidos := contados } chaves protegidas
            objetos :=
              if apagou then guardarObjeto s.objetos (placeOf p.storage) chave none
              else s.objetos }
      else none
    | _ => none
  | .fimDaPagina =>
    match s.varredura with
    | .apagando p chaves _ =>
      if chaves = [] ∨ limites.teto ≤ p.removidos then
        some { s with varredura := avancar limites p }
      else none
    | .entreStorages restantes removidos =>
      if restantes = [] ∨ limites.teto ≤ removidos then some { s with varredura := .parada }
      else none
    | _ => none
  | .falharVarredura =>
    match s.varredura with
    | .entrePaginas p | .listada p _ | .contando p _ =>
      some { s with varredura := .entreStorages p.restantes p.removidos }
    | .entreStorages (_ :: restantes) removidos =>
      some { s with varredura := .entreStorages restantes removidos }
    | _ => none
  | _ => none

def Ciclo.caminhos : Ciclo → List Text
  | .podando candidatas => candidatas.map Pendente.filePath
  | .marcando _ candidatas => candidatas.map Pendente.filePath
  | _ => []

/-- A new segment, in a file of its own, and the removal of a row with its local file. -/
def passoDoAcervo (s : Estado Place) : Acao → Option (Estado Place)
  | .gravar row bytes =>
    if row.cloudKey = none ∧ row.filePath ∉ s.linhas.map Recording.filePath ∧
        row.filePath ∉ s.ciclo.caminhos then
      some { s with
        linhas := s.linhas ++ [row]
        arquivos := guardarArquivo s.arquivos row.filePath (some bytes) }
    else none
  | .excluir id =>
    match s.linhas.find? fun row => row.id = id with
    | some alvo => some { s with
        linhas := s.linhas.filter fun row => row.id ≠ id
        arquivos := guardarArquivo s.arquivos alvo.filePath none }
    | none => none
  | _ => none

def passo (s : Estado Place) (acao : Acao) : Option (Estado Place) :=
  match passoDoCiclo limites placeOf s acao with
  | some t => some t
  | none =>
    match passoDaVarredura limites placeOf s acao with
    | some t => some t
    | none => passoDoAcervo s acao

end Sistema

end DracVms.OffloadSweep
