import DracVms.Library.PagedQueue
import DracVms.Recordings.BatchExpiry

namespace DracVms.DiskUsage

open Json Database Where Protection PagedQueue
open Retention (recusa)

/-- The tables. Ids are unique in `Recording`. -/
structure Acervo where
  recordings : List Recording
  clips : List ExportedClip
  distinct : (recordings.map Recording.id).Nodup

/-- The row goes, and with it the clips that were cut from it. -/
def Acervo.semGravacao (acervo : Acervo) (id : Text) : Acervo where
  recordings := acervo.recordings.filter fun row => row.id ≠ id
  clips := acervo.clips.filter fun clip => clip.sourceRecordingId ≠ id
  distinct := acervo.distinct.sublist (List.filter_sublist.map _)

def carimbar (agora : Instant) (row : Recording) : Recording :=
    { row with localDeletedAt := some agora }

def Acervo.semLocal (acervo : Acervo) (id : Text) (agora : Instant) : Acervo where
  recordings := updateRow acervo.recordings id (carimbar agora)
  clips := acervo.clips
  distinct := by
    rw [updateRow_ids _ _ (carimbar agora) (fun _ => rfl)]
    exact acervo.distinct

/-- `arquivos` says which recordings have a local file that can be removed, and `objetos` whose
objects were deleted from their buckets. -/
structure Passagem where
  acervo : Acervo
  arquivos : Text → Bool
  objetos : List Recording

/-- What the disk, the database and the buckets answer. -/
structure Respostas where
  caminhoInvalido : Text → Bool
  carimba : Text → Bool
  falha : Text → Bool
  objetoSai : Recording → Bool
  agora : Instant

inductive Modo where
  | liberar
  | apagar
  deriving DecidableEq

/-- How a pass ends. `semLaco` is a pass that stops before its loop. -/
inductive Desfecho where
  | semLaco
  | alvo
  | limite
  | freio
  | vazio
  | nadaSaiu
  | erro
  deriving DecidableEq

structure Controle where
  current : Int
  freeAntes : Nat
  noProgressBatches : Nat

structure Limiares where
  triggerPercent : Int
  target : Int
  maxNoProgressBatches : Nat

/-- The readings: before the pass, before its loop, and after each batch. A reading that throws, or
a query in its place, is none. -/
structure Medidas where
  initialPercent : Option Int
  freeAntes : Option Nat
  aposLote : Nat → Option (Int × Option Nat)

structure Resultado where
  desfecho : Desfecho
  current : Int
  fim : Passagem

def semArquivo (arquivos : Text → Bool) (id : Text) : Text → Bool :=
  fun other => arquivos other && decide (other ≠ id)

section Lote

variable (respostas : Respostas) (protection : ProtectionSets) (nuvemAtiva : Bool)

/-- Only the local files go. The row is stamped even when there was none. -/
def liberarEspacoLocal (s : Passagem) (recording : Recording) : Passagem × Bool :=
  if respostas.caminhoInvalido recording.id then (s, false)
  else
    ({ s with
        acervo := if respostas.carimba recording.id then
          s.acervo.semLocal recording.id respostas.agora else s.acervo
        arquivos := semArquivo s.arquivos recording.id },
      s.arquivos recording.id)

/-- Nothing happens without a key; `objetoSai` tells the rest. -/
def deleteCloudObject (objetos : List Recording) (recording : Recording) : List Recording :=
  if recording.cloudKey.getD [] ≠ [] ∧ respostas.objetoSai recording = true then
    objetos ++ [recording] else objetos

/-- The row, its files and its object go, unless the recording is protected or something throws. -/
def deleteRecording (s : Passagem) (recording : Recording) : Passagem × Bool :=
  if recusa protection s.acervo.clips recording.id then (s, false)
  else if respostas.falha recording.id then (s, false)
  else
    ({ acervo := s.acervo.semGravacao recording.id
       arquivos := semArquivo s.arquivos recording.id
       objetos := deleteCloudObject respostas s.objetos recording }, true)

def semHold : List (Condition Recording) :=
  if protection.recordingIds = [] then []
  else [compare (fun row => some row.id) fun id => id ∉ protection.recordingIds]

/-- The recordings with a confirmed copy in the bucket that still take room on the disk. -/
def naNuvem : Condition Recording :=
  all (semHold protection ++ [isNotNull Recording.cloudUploadedAt, isNull Recording.localDeletedAt,
    isNull Recording.cloudMissingSince])

/-- With a cloud, only what was never sent: age alone decides without one. -/
def porIdade : Condition Recording :=
  all (semHold protection ++ if nuvemAtiva then [isNull Recording.cloudUploadedAt] else [])

def filaLiberar (s : Passagem) : List Recording :=
  if nuvemAtiva then byStart (select (naNuvem protection) s.acervo.recordings) else []

def filaApagar (s : Passagem) : List Recording :=
  byStart (select (porIdade protection nuvemAtiva) s.acervo.recordings)

def loteDe : Nat := 20

def selecionar (s : Passagem) : Modo × List Recording :=
  let oldest := (filaLiberar protection nuvemAtiva s).take loteDe
  if oldest ≠ [] then (.liberar, oldest)
  else (.apagar, (filaApagar protection nuvemAtiva s).take loteDe)

def visitar : Modo → Passagem → Recording → Passagem × Bool
  | .liberar => liberarEspacoLocal respostas
  | .apagar => deleteRecording respostas protection

end Lote

section Laco

variable (respostas : Respostas) (protection : ProtectionSets) (nuvemAtiva : Bool)
  (limiares : Limiares) (medidas : Medidas)

/-- What the readings after a batch decide. The brake counts the batches that freed no byte. -/
def Controle.seguir (c : Controle) : Option (Int × Option Nat) → Except (Desfecho × Int) Controle
  | none => .error (.erro, c.current)
  | some (current, none) => .error (.erro, current)
  | some (current, some freeDepois) =>
    if c.freeAntes < freeDepois then .ok ⟨current, freeDepois, 0⟩
    else if limiares.maxNoProgressBatches ≤ c.noProgressBatches + 1 then .error (.freio, current)
    else .ok ⟨current, freeDepois, c.noProgressBatches + 1⟩

/-- The `for` of the pass, with the iterations that are left and the batches so far. -/
def laco : Nat → Nat → Controle → Passagem → Resultado
  | 0, _, c, s => ⟨if c.current ≤ limiares.target then .alvo else .limite, c.current, s⟩
  | restantes + 1, lotes, c, s =>
    if c.current ≤ limiares.target then ⟨.alvo, c.current, s⟩
    else
      let (modo, oldest) := selecionar protection nuvemAtiva s
      if oldest = [] then ⟨.vazio, c.current, s⟩
      else
        let (t, batchDeleted) := visitPage (visitar respostas protection modo) s oldest
        if batchDeleted = 0 then ⟨.nadaSaiu, c.current, t⟩
        else
          match c.seguir limiares (medidas.aposLote lotes) with
          | .error (desfecho, current) => ⟨desfecho, current, t⟩
          | .ok seguinte => laco restantes (lotes + 1) seguinte t

def iteracoes : Nat := 100

/-- The pass, where a failed count of the active storages is none of them. -/
def checkDiskUsage (autoCleanup : Bool) (storagesAtivos : Option Nat) (s : Passagem) : Resultado :=
  match medidas.initialPercent with
  | none => ⟨.semLaco, 0, s⟩
  | some initialPercent =>
    if initialPercent ≤ limiares.triggerPercent then ⟨.semLaco, initialPercent, s⟩
    else if !autoCleanup then ⟨.semLaco, initialPercent, s⟩
    else
      let nuvemAtiva := storagesAtivos.any (0 < ·)
      match medidas.freeAntes with
      | none => ⟨.semLaco, initialPercent, s⟩
      | some freeAntes =>
        laco respostas protection nuvemAtiva limiares medidas iteracoes 0
          ⟨initialPercent, freeAntes, 0⟩ s

end Laco

/-- How many batches the readings allow, how they end the pass if none is in vain, and the usage
then. -/
structure Permissao where
  lotes : Nat
  desfecho : Desfecho
  current : Int

section Leituras

variable (limiares : Limiares) (medidas : Medidas)

def permissao : Nat → Nat → Controle → Permissao
  | 0, _, c => ⟨0, if c.current ≤ limiares.target then .alvo else .limite, c.current⟩
  | restantes + 1, lotes, c =>
    if c.current ≤ limiares.target then ⟨0, .alvo, c.current⟩
    else
      match c.seguir limiares (medidas.aposLote lotes) with
      | .error (desfecho, current) => ⟨1, desfecho, current⟩
      | .ok seguinte =>
        let resto := permissao restantes (lotes + 1) seguinte
        { resto with lotes := resto.lotes + 1 }

/-- What the readings allow a pass: nothing when it stops before its loop. -/
def permissaoDaPassagem (autoCleanup : Bool) : Permissao :=
  match medidas.initialPercent with
  | none => ⟨0, .semLaco, 0⟩
  | some initialPercent =>
    if initialPercent ≤ limiares.triggerPercent then ⟨0, .semLaco, initialPercent⟩
    else if !autoCleanup then ⟨0, .semLaco, initialPercent⟩
    else
      match medidas.freeAntes with
      | none => ⟨0, .semLaco, initialPercent⟩
      | some freeAntes =>
        permissao limiares medidas iteracoes 0 ⟨initialPercent, freeAntes, 0⟩

end Leituras

end DracVms.DiskUsage
