import DracVms.CloudStorage.OffloadSweep
import DracVms.Library.PagedQueue

namespace DracVms.UploadPending

open List Json Database OffloadSweep

/-- What the disk, the bucket and the database answer during a cycle. `stat` is none for a path
outside of the root, and for a file that is not there. -/
structure Respostas where
  stat : Text → Option Nat
  abre : Text → Bool
  put : Pendente → Bool
  headObject : Pendente → Option ConfirmacaoHead
  grava : Pendente → Bool
  agora : Instant

/-- What a cycle changes and counts. `tentativas` are the recordings of which an upload began. -/
structure Envios where
  linhas : List Recording
  enviosInverificaveis : List Text
  tentativas : List Pendente
  uploaded : Nat
  failed : Nat
  bytesUploaded : Nat

section Envio

variable (limites : Limites) (respostas : Respostas) (storageId : Option Text)

/-- `subirUma`, and its bytes when it is confirmed and recorded. -/
def subirUma (e : Envios) (rec : Pendente) : Envios × Option Nat :=
  match respostas.stat rec.filePath with
  | none => (e, none)
  | some tamanho =>
    if tamanho = 0 then (e, none)
    else if !respostas.abre rec.filePath then (e, none)
    else
      let tentou := { e with tentativas := e.tentativas ++ [rec] }
      if !respostas.put rec then (tentou, none)
      else
        match respostas.headObject rec with
        | none => (tentou, none)
        | some confirmado =>
          match avaliarConfirmacao confirmado tamanho with
          | .inverificavel =>
            ({ tentou with
                enviosInverificaveis := rec.id :: tentou.enviosInverificaveis }, none)
          | .objetoAusente => (tentou, none)
          | .tamanhoDivergente => (tentou, none)
          | .ok =>
            if !respostas.grava rec then (tentou, none)
            else
              ({ tentou with
                  linhas := updateRow tentou.linhas rec.id fun row =>
                    { row with
                      cloudKey := some (buildCloudKey rec)
                      cloudUploadedAt := some respostas.agora
                      cloudStorageId := storageId } }, some tamanho)

def contarEnvio (e : Envios) (rec : Pendente) : Envios :=
  match subirUma respostas storageId e rec with
  | (t, some bytes) =>
    { t with uploaded := t.uploaded + 1, bytesUploaded := t.bytesUploaded + bytes }
  | (t, none) => { t with failed := t.failed + 1 }

/-- The recordings that wait, the oldest first. -/
def filaPendente (politica : StoragePolicy) (linhas : List Recording) : List Recording :=
  if politica.enabled ∧ politica.tipos ≠ [] then byStart (linhas.filter (filtroPendente politica))
  else []

/-- A count that fails leaves the usual batch. -/
def loteDoCiclo (politica : StoragePolicy) (linhas : List Recording) (contou : Bool) : Nat :=
  lote limites (if contou then (linhas.filter (filtroPendente politica)).length else 0)

/-- The workers together come to each recording of the queue. -/
def uploadPending (politica : StoragePolicy) (contou : Bool) (linhas : List Recording)
    (inverificaveis : List Text) : Envios :=
  let pendentes := ((filaPendente politica linhas).take (loteDoCiclo limites politica linhas
    contou)).map
    pendenteDe
  let fila := pendentes.filter fun rec => rec.id ∉ inverificaveis
  fila.foldl (contarEnvio respostas storageId) ⟨linhas, inverificaveis, [], 0, 0, 0⟩

/-- The local file is there, is not empty and can be read. -/
def legivel (rec : Pendente) : Bool :=
  (respostas.stat rec.filePath).any (0 < ·) && respostas.abre rec.filePath

def Enviavel (inverificaveis : List Text) (row : Recording) : Prop :=
  legivel respostas (pendenteDe row) = true ∧ row.id ∉ inverificaveis

theorem contarEnvio_tentativas (e : Envios) (rec : Pendente) :
    (contarEnvio respostas storageId e rec).tentativas =
      if legivel respostas rec then e.tentativas ++ [rec] else e.tentativas := by
  have counted : (contarEnvio respostas storageId e rec).tentativas =
      (subirUma respostas storageId e rec).1.tentativas := by
    unfold contarEnvio
    split
    · rename_i sent
      rw [sent]
    · rename_i failed
      rw [failed]
  rw [counted]
  unfold subirUma legivel
  cases respostas.stat rec.filePath with
  | none => rfl
  | some tamanho =>
    by_cases empty : tamanho = 0
    · simp [empty]
    · have some : 0 < tamanho := Nat.pos_of_ne_zero empty
      by_cases opens : respostas.abre rec.filePath = true
      · simp only [empty, if_false, opens, Bool.not_true, Bool.false_eq_true, Option.any_some,
          some, decide_true, Bool.and_self, if_true]
        split
        · rfl
        · split
          · rfl
          · split
            · rfl
            · rfl
            · rfl
            · split
              all_goals rfl
      · simp [empty, opens]

theorem envios_tentativas (fila : List Pendente) (e : Envios) :
    (fila.foldl (contarEnvio respostas storageId) e).tentativas =
      e.tentativas ++ fila.filter (legivel respostas) := by
  induction fila generalizing e with
  | nil => simp
  | cons rec fila ih =>
    rw [foldl_cons, ih, contarEnvio_tentativas, filter_cons]
    split
    · rw [append_assoc, singleton_append]
    · rfl

variable (politica : StoragePolicy) (contou : Bool) (linhas : List Recording)
  (inverificaveis : List Text)

/-- The cycle attempts what its page holds that can be sent. -/
theorem uploadPending_attempts :
    (uploadPending limites respostas storageId politica contou linhas inverificaveis).tentativas ≠ []
      ↔ ∃ row ∈ (filaPendente politica linhas).take (loteDoCiclo limites politica linhas contou),
        Enviavel respostas inverificaveis row := by
  rw [uploadPending, envios_tentativas, nil_append, filter_filter]
  constructor
  · intro some
    obtain ⟨rec, present⟩ := exists_mem_of_ne_nil _ some
    obtain ⟨listed, chosen⟩ := mem_filter.mp present
    obtain ⟨row, inPage, rfl⟩ := mem_map.mp listed
    rw [Bool.and_eq_true, decide_eq_true_eq] at chosen
    exact ⟨row, inPage, chosen⟩
  · rintro ⟨row, inPage, chosen⟩
    have sent : pendenteDe row ∈ (((filaPendente politica linhas).take
        (loteDoCiclo limites politica linhas contou)).map pendenteDe).filter fun rec =>
          legivel respostas rec && decide (rec.id ∉ inverificaveis) := by
      apply mem_filter.mpr
      refine ⟨mem_map_of_mem inPage, ?_⟩
      rw [Bool.and_eq_true, decide_eq_true_eq]
      exact chosen
    exact ne_nil_of_mem sent

/-- A cycle attempts an upload whenever some recording can be sent, exactly when those before the
first of them that can are fewer than the batch. -/
theorem uploadPending_progresses_iff :
    ((∃ row ∈ filaPendente politica linhas, Enviavel respostas inverificaveis row) →
      (uploadPending limites respostas storageId politica contou linhas
        inverificaveis).tentativas ≠ []) ↔
    ∀ before row after, filaPendente politica linhas = before ++ row :: after →
      Enviavel respostas inverificaveis row →
      (∀ other ∈ before, ¬Enviavel respostas inverificaveis other) →
        before.length < loteDoCiclo limites politica linhas contou := by
  rw [uploadPending_attempts]
  exact PagedQueue.first_page_iff (Enviavel respostas inverificaveis) _ _

end Envio

/-- A pending recording, of a camera that records all the time. -/
def pendente (id : Char) (startedAt : Instant) : Recording where
  id := [id]
  cameraId := ['c']
  triggerMode := ['m']
  startedAt := startedAt
  endedAt := some (startedAt + 1)
  filePath := [id]
  sizeBytes := some 1
  cloudKey := none
  cloudUploadedAt := none
  cloudStorageId := none
  localDeletedAt := none
  cloudMissingSince := none

/-- Only the file of the newer recording is still on the disk. -/
def soOSegundo : Respostas where
  stat := fun caminho => if caminho = ['b'] then some 7 else none
  abre := fun _ => true
  put := fun _ => true
  headObject := fun _ => some ⟨true, true, some 7⟩
  grava := fun _ => true
  agora := 9

/-- A batch of one holds the older recording, whose file is gone, and the other never gets sent. -/
theorem uploadPending_starves :
    ¬((∃ row ∈ filaPendente ⟨true, [['m']], false⟩ [pendente 'a' 0, pendente 'b' 1],
          Enviavel soOSegundo [] row) →
        (uploadPending ⟨1, 200, 500⟩ soOSegundo (some ['s']) ⟨true, [['m']], false⟩ true
          [pendente 'a' 0, pendente 'b' 1] []).tentativas ≠ []) := by
  intro progresses
  have none : (uploadPending ⟨1, 200, 500⟩ soOSegundo (some ['s']) ⟨true, [['m']], false⟩ true
      [pendente 'a' 0, pendente 'b' 1] []).tentativas = [] := by
    decide +kernel
  have waiting : pendente 'b' 1 ∈ filaPendente ⟨true, [['m']], false⟩
      [pendente 'a' 0, pendente 'b' 1] := by
    decide +kernel
  exact progresses ⟨pendente 'b' 1, waiting, rfl, not_mem_nil⟩ none

end DracVms.UploadPending
