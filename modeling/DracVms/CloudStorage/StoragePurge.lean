import DracVms.CloudStorage.OffloadSweep

namespace DracVms.StoragePurge

open Json Database OffloadSweep

/-- Where `expurgarStoragesRemovidos` stands: the storage, and the statement that comes next. -/
inductive Expurgo where
  | parado
  | removendo (storage : Text)
  | limpando (storage : Text)
  | apagando (storage : Text)
  deriving DecidableEq

inductive Passo where
  | ciclo (acao : Acao)
  | falharMarcacao
  | gravar (row : Recording) (bytes : Nat)
  | excluir (id : Text)
  | marcarSumida (id : Text) (agora : Instant)
  | desmarcar (id : Text)
  | cadastrar (storage : Text)
  | iniciarExpurgo (storage : Text)
  | removerSemLastro
  | limparNuvem
  | apagarStorage
  | falharExpurgo

section Sistema

variable {Place : Type}

/-- The offload with its rows, disk and buckets, the ids of `CloudStorage`, and the purge. -/
structure Sistema (Place : Type) where
  nuvem : Estado Place
  storages : List Text
  expurgo : Expurgo

/-- `cloudStorageId` is a foreign key, or null for the storage that came before the table. -/
def StorageExiste (storages : List Text) (storage : Option Text) : Prop :=
  ∀ id, storage = some id → id ∈ storages

instance (storages : List Text) (storage : Option Text) :
    Decidable (StorageExiste storages storage) :=
  decidable_of_iff (storage.all (· ∈ storages) = true) (by
    cases storage with
    | none => simp [StorageExiste]
    | some id => simp [StorageExiste])

/-- The update that records an upload fails when its storage is gone. -/
def chaveEstrangeira (s : Sistema Place) : Acao → Bool
  | .registrar _ _ =>
    match s.nuvem.ciclo with
    | .enviando destino _ _ => decide (StorageExiste s.storages destino.id)
    | _ => true
  | _ => true

def recsDoCiclo : Ciclo → List Pendente
  | .enviando _ fila emVoo => emVoo.map Envio.gravacao ++ fila
  | .podando candidatas => candidatas
  | .marcando rec candidatas => rec :: candidatas
  | .parado => []

/-- An id that the database makes, which holds no slash. -/
def SemBarra (rec : Pendente) : Prop := '/' ∉ rec.id ∧ '/' ∉ rec.cameraId

instance (rec : Pendente) : Decidable (SemBarra rec) := inferInstanceAs (Decidable (_ ∧ _))

def IdNovo (s : Sistema Place) (row : Recording) : Prop :=
  row.id ∉ s.nuvem.linhas.map Recording.id ∧
    row.id ∉ (recsDoCiclo s.nuvem.ciclo).map Pendente.id ∧ SemBarra (pendenteDe row)

instance (s : Sistema Place) (row : Recording) : Decidable (IdNovo s row) :=
  inferInstanceAs (Decidable (_ ∧ _ ∧ _))

def sumida (agora : Instant) (row : Recording) : Recording :=
  { row with cloudMissingSince := row.cloudMissingSince.orElse fun _ => some agora }

def recuperada (row : Recording) : Recording := { row with cloudMissingSince := none }

def semNuvem (storage : Text) (row : Recording) : Recording :=
  if row.cloudStorageId = some storage then
    { row with
      cloudKey := none
      cloudUploadedAt := none
      cloudStorageId := none
      cloudMissingSince := none }
  else row

/-- `onDelete: SetNull` -/
def semReferencia (storage : Text) (row : Recording) : Recording :=
  if row.cloudStorageId = some storage then { row with cloudStorageId := none } else row

def semLastro (storage : Text) (row : Recording) : Bool :=
  decide (row.cloudStorageId = some storage) && row.localDeletedAt.isSome

def comLinhas (s : Sistema Place) (linhas : List Recording) : Sistema Place :=
  { s with nuvem := { s.nuvem with linhas := linhas } }

variable [DecidableEq Place] (limites : Limites) (placeOf : Option Text → Place)

def passo (s : Sistema Place) : Passo → Option (Sistema Place)
  | .ciclo acao =>
    if chaveEstrangeira s acao then
      (passoDoCiclo limites placeOf s.nuvem acao).map fun nuvem => { s with nuvem := nuvem }
    else none
  | .falharMarcacao =>
    match s.nuvem.ciclo with
    | .marcando _ _ => some { s with nuvem := { s.nuvem with ciclo := .parado } }
    | _ => none
  | .gravar row bytes =>
    if IdNovo s row then
      (passoDoAcervo s.nuvem (.gravar row bytes)).map fun nuvem => { s with nuvem := nuvem }
    else none
  | .excluir id =>
    (passoDoAcervo s.nuvem (.excluir id)).map fun nuvem => { s with nuvem := nuvem }
  | .marcarSumida id agora => some (comLinhas s (updateRow s.nuvem.linhas id (sumida agora)))
  | .desmarcar id => some (comLinhas s (updateRow s.nuvem.linhas id recuperada))
  | .cadastrar storage => some { s with storages := storage :: s.storages }
  | .iniciarExpurgo storage =>
    if s.expurgo = .parado ∧ storage ∈ s.storages then
      some { s with expurgo := .removendo storage }
    else none
  | .removerSemLastro =>
    match s.expurgo with
    | .removendo storage =>
      some { comLinhas s (s.nuvem.linhas.filter fun row => !semLastro storage row) with
        expurgo := .limpando storage }
    | _ => none
  | .limparNuvem =>
    match s.expurgo with
    | .limpando storage =>
      some { comLinhas s (s.nuvem.linhas.map (semNuvem storage)) with
        expurgo := .apagando storage }
    | _ => none
  | .apagarStorage =>
    match s.expurgo with
    | .apagando storage =>
      some { comLinhas s (s.nuvem.linhas.map (semReferencia storage)) with
        storages := s.storages.filter (· ≠ storage)
        expurgo := .parado }
    | _ => none
  | .falharExpurgo =>
    if s.expurgo = .parado then none else some { s with expurgo := .parado }

end Sistema

end DracVms.StoragePurge
