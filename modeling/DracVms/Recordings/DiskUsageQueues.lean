import DracVms.Recordings.BatchExpiryWalk
import DracVms.Recordings.DiskUsage

namespace DracVms.DiskUsage

open List Json Database Where Protection PagedQueue
open Retention (recusa)

section Ordering

theorem byStart_filter (rows : List Recording) (keep : Recording → Bool) :
    byStart (rows.filter keep) = (byStart rows).filter keep := by
  apply KeyedList.insertionSort_filter
  · intro a b
    exact Nat.le_total _ _
  · intro a b c first second
    exact Nat.le_trans first second

section

variable (condition : Condition Recording) (rows : List Recording)

theorem select_filter (keep : Recording → Bool) :
    select condition (rows.filter keep) = (select condition rows).filter keep := by
  unfold select
  rw [filter_filter, filter_filter]
  congr 1
  funext row
  exact Bool.and_comm _ _

theorem select_updateRow (id : Text) (change : Recording → Recording)
    (out : ∀ row ∈ rows, row.id = id → ¬Selects condition (change row)) :
    select condition (updateRow rows id change) =
      (select condition rows).filter fun row => row.id ≠ id := by
  induction rows with
  | nil => rfl
  | cons row rows ih =>
    obtain ⟨outHere, outRest⟩ := forall_mem_cons.mp out
    have rest := ih outRest
    unfold select updateRow at rest ⊢
    rw [map_cons, filter_cons, rest, filter_cons]
    by_cases same : row.id = id
    · have gone := outHere same
      rw [if_pos same, if_neg (by simpa using gone)]
      by_cases selected : Selects condition row
      · rw [if_pos (decide_eq_true selected), filter_cons, if_neg (by simpa using same)]
      · rw [if_neg (by simpa using selected)]
    · rw [if_neg same]
      by_cases selected : Selects condition row
      · have kept := decide_eq_true selected
        rw [if_pos kept, if_pos kept, filter_cons, if_pos (by simpa using same)]
      · have dropped : ¬decide (Selects condition row) = true := by simpa using selected
        rw [if_neg dropped, if_neg dropped]

theorem ids_of_queue (distinct : (rows.map Recording.id).Nodup) :
    ((byStart (select condition rows)).map Recording.id).Nodup := by
  have perm := (perm_insertionSort (fun a b : Recording => a.startedAt ≤ b.startedAt)
    (select condition rows)).map Recording.id
  exact perm.nodup_iff.mpr (distinct.sublist (filter_sublist.map _))

theorem mem_queue (row : Recording) :
    row ∈ byStart (select condition rows) ↔ row ∈ rows ∧ Selects condition row := by
  rw [mem_byStart, mem_select]

end

end Ordering

section Filas

variable (respostas : Respostas) (protection : ProtectionSets) (nuvemAtiva : Bool) (s : Passagem)

theorem mem_filaLiberar (row : Recording) : row ∈ filaLiberar protection nuvemAtiva s ↔
      nuvemAtiva = true ∧ row ∈ s.acervo.recordings ∧ Selects (naNuvem protection) row := by
  unfold filaLiberar
  cases nuvemAtiva with
  | false => simp
  | true => simp [mem_queue]

theorem mem_filaApagar (row : Recording) : row ∈ filaApagar protection nuvemAtiva s ↔
      row ∈ s.acervo.recordings ∧ Selects (porIdade protection nuvemAtiva) row := by
  rw [filaApagar, mem_queue]

theorem filaLiberar_ids : ((filaLiberar protection nuvemAtiva s).map Recording.id).Nodup := by
  unfold filaLiberar
  split
  · exact ids_of_queue _ _ s.acervo.distinct
  · exact nodup_nil

theorem filaApagar_ids : ((filaApagar protection nuvemAtiva s).map Recording.id).Nodup :=
  ids_of_queue _ _ s.acervo.distinct

theorem semHold_rest (row : Recording) (rest : List (Condition Recording))
    (selected : Selects (all (semHold protection ++ rest)) row) : Selects (all rest) row := by
  unfold semHold at selected
  split at selected
  · exact selected
  · exact ((selects_all_cons _ _ _).mp selected).2

theorem naNuvem_columns (row : Recording) (selected : Selects (naNuvem protection) row) :
    row.cloudUploadedAt.isSome = true ∧ row.localDeletedAt = none := by
  have columns := semHold_rest protection row _ selected
  simp only [selects_all_cons, selects_isNotNull, selects_isNull] at columns
  exact ⟨Option.isSome_iff_exists.mpr columns.1, columns.2.1⟩

theorem porIdade_local (row : Recording) (selected : Selects (porIdade protection true) row) :
    row.cloudUploadedAt = none := by
  have columns := semHold_rest protection row _ selected
  simp only [if_true, selects_all_cons, selects_isNull] at columns
  exact columns.1

theorem filas_apart (row other : Recording) (first : row ∈ filaLiberar protection nuvemAtiva s)
    (second : other ∈ filaApagar protection nuvemAtiva s) : other.id ≠ row.id := by
  obtain ⟨ativa, inRows, selected⟩ := (mem_filaLiberar protection nuvemAtiva s row).mp first
  obtain ⟨inRows', selected'⟩ := (mem_filaApagar protection nuvemAtiva s other).mp second
  intro same
  have equal := KeyedList.eq_of_key s.acervo.distinct inRows' inRows same
  rw [ativa] at selected'
  have sent := (naNuvem_columns protection row selected).1
  have kept := porIdade_local protection other selected'
  rw [equal] at kept
  rw [kept] at sent
  cases sent

/-- The recordings that leave the first queue when their local files go. -/
def carimbavel (row : Recording) : Bool :=
  !respostas.caminhoInvalido row.id && respostas.carimba row.id

def liberavel (s : Passagem) (row : Recording) : Bool :=
  !respostas.caminhoInvalido row.id && s.arquivos row.id

def apagavel (s : Passagem) (row : Recording) : Bool :=
  !recusa protection s.acervo.clips row.id && !respostas.falha row.id

theorem liberarEspacoLocal_did (row : Recording) :
    (liberarEspacoLocal respostas s row).2 = liberavel respostas s row := by
  unfold liberarEspacoLocal liberavel
  by_cases invalido : respostas.caminhoInvalido row.id = true
  · rw [if_pos invalido, invalido]
    rfl
  · rw [if_neg invalido, Bool.eq_false_of_not_eq_true invalido]
    rfl

theorem deleteRecording_did (row : Recording) :
    (deleteRecording respostas protection s row).2 = apagavel respostas protection s row := by
  unfold deleteRecording apagavel
  by_cases refused : recusa protection s.acervo.clips row.id = true
  · rw [if_pos refused, refused]
    rfl
  · rw [if_neg refused, Bool.eq_false_of_not_eq_true refused]
    by_cases fails : respostas.falha row.id = true
    · rw [if_pos fails, fails]
      rfl
    · rw [if_neg fails, Bool.eq_false_of_not_eq_true fails]
      rfl

theorem filaLiberar_semLocal (s t : Passagem) (id : Text) (agora : Instant)
    (rows : t.acervo.recordings = updateRow s.acervo.recordings id (carimbar agora)) :
    filaLiberar protection nuvemAtiva t =
      (filaLiberar protection nuvemAtiva s).filter fun row => row.id ≠ id := by
  unfold filaLiberar
  split
  · rw [rows, select_updateRow, byStart_filter]
    intro row _ _ selected
    have none := (naNuvem_columns protection _ selected).2
    cases none
  · rfl

theorem filaApagar_semLocal (s t : Passagem) (row : Recording) (agora : Instant)
    (first : row ∈ filaLiberar protection nuvemAtiva s)
    (rows : t.acervo.recordings = updateRow s.acervo.recordings row.id (carimbar agora)) :
    filaApagar protection nuvemAtiva t = filaApagar protection nuvemAtiva s := by
  obtain ⟨ativa, inRows, selected⟩ := (mem_filaLiberar protection nuvemAtiva s row).mp first
  have sent := (naNuvem_columns protection row selected).1
  unfold filaApagar
  rw [rows, select_updateRow, byStart_filter]
  · apply filter_eq_self.mpr
    intro other present
    have apart := filas_apart protection nuvemAtiva s row other first present
    simpa using apart
  · intro other present same chosen
    rw [KeyedList.eq_of_key s.acervo.distinct present inRows same, ativa] at chosen
    have kept : row.cloudUploadedAt = none :=
      porIdade_local protection (carimbar agora row) chosen
    rw [kept] at sent
    cases sent

theorem filas_semGravacao (s t : Passagem) (id : Text)
    (rows : t.acervo.recordings = s.acervo.recordings.filter fun row => row.id ≠ id) :
    filaLiberar protection nuvemAtiva t =
        ((filaLiberar protection nuvemAtiva s).filter fun row => row.id ≠ id) ∧
      filaApagar protection nuvemAtiva t =
        (filaApagar protection nuvemAtiva s).filter fun row => row.id ≠ id := by
  unfold filaLiberar filaApagar
  rw [rows]
  constructor
  · split
    · rw [select_filter, byStart_filter]
    · rfl
  · rw [select_filter, byStart_filter]

/-- What is known when the first queue was read so far. -/
structure Liberando (inicio : Passagem) (read rest : List Recording) (s : Passagem) : Prop where
  whole : read ++ rest = filaLiberar protection nuvemAtiva inicio
  queue : filaLiberar protection nuvemAtiva s =
    (read.filter fun row => !carimbavel respostas row) ++ rest
  apagar : filaApagar protection nuvemAtiva s = filaApagar protection nuvemAtiva inicio
  porVir : ∀ row ∈ rest, s.arquivos row.id = inicio.arquivos row.id
  lidos : ∀ row ∈ read, liberavel respostas s row = false
  ids : s.acervo.recordings.map Recording.id = inicio.acervo.recordings.map Recording.id
  clips : s.acervo.clips = inicio.acervo.clips
  objetos : s.objetos = inicio.objetos

variable (inicio s : Passagem)

theorem liberando_distinct (read rest : List Recording)
    (here : Liberando respostas protection nuvemAtiva inicio read rest s) :
    ((read ++ rest).map Recording.id).Nodup := by
  rw [here.whole]
  exact filaLiberar_ids protection nuvemAtiva inicio

theorem filter_head (leaves : Recording → Bool) (read rest : List Recording) (row : Recording)
    (distinct : ((read ++ row :: rest).map Recording.id).Nodup) :
    (((read.filter fun other => !leaves other) ++ row :: rest).filter
        fun other => other.id ≠ row.id) = (read.filter fun other => !leaves other) ++ rest := by
  rw [map_append, map_cons, nodup_append] at distinct
  obtain ⟨-, distinctRest, apart⟩ := distinct
  have fresh := (nodup_cons.mp distinctRest).1
  rw [filter_append, filter_cons, if_neg (by simp)]
  congr 1
  · apply filter_eq_self.mpr
    intro other present
    have known : other.id ∈ read.map Recording.id :=
      mem_map_of_mem (mem_of_mem_filter present)
    simpa using apart other.id known row.id mem_cons_self
  · apply filter_eq_self.mpr
    intro other present
    apply decide_eq_true
    intro same
    rw [← same] at fresh
    exact fresh (mem_map_of_mem present)

variable (arquivos : Text → Bool)

theorem semArquivo_absent (id : Text) (absent : arquivos id = false) :
    semArquivo arquivos id = arquivos := by
  funext other
  unfold semArquivo
  by_cases same : other = id
  · rw [same, absent, Bool.false_and]
  · rw [decide_eq_true same, Bool.and_true]

theorem semArquivo_other (id other : Text) (apart : other ≠ id) :
    semArquivo arquivos id other = arquivos other := by
  rw [semArquivo, decide_eq_true apart, Bool.and_true]

theorem semArquivo_same (id : Text) : semArquivo arquivos id id = false := by
  simp [semArquivo]

theorem liberando_again (read rest : List Recording) (row : Recording)
    (here : Liberando respostas protection nuvemAtiva inicio read rest s) (known : row ∈ read)
    (stays : carimbavel respostas row = false) :
    liberarEspacoLocal respostas s row = (s, false) := by
  unfold liberarEspacoLocal
  by_cases invalido : respostas.caminhoInvalido row.id = true
  · rw [if_pos invalido]
  · have semCarimbo : respostas.carimba row.id = false := by
      simpa [carimbavel, invalido] using stays
    have absent : s.arquivos row.id = false := by
      simpa [liberavel, invalido] using here.lidos row known
    simp [invalido, semCarimbo, absent, semArquivo_absent]

theorem liberando_first (read rest : List Recording) (row : Recording)
    (here : Liberando respostas protection nuvemAtiva inicio read (row :: rest) s) :
    Liberando respostas protection nuvemAtiva inicio (read ++ [row]) rest
      (liberarEspacoLocal respostas s row).1 := by
  have distinct := liberando_distinct respostas protection nuvemAtiva inicio s _ _ here
  obtain ⟨whole, queue, apagar, porVir, lidos, ids, clips, objetos⟩ := here
  have whole' : (read ++ [row]) ++ rest = filaLiberar protection nuvemAtiva inicio := by
    rw [append_assoc]
    exact whole
  have apart : ∀ other ∈ rest, other.id ≠ row.id := by
    rw [map_append, map_cons, nodup_append] at distinct
    have fresh := (nodup_cons.mp distinct.2.1).1
    intro other present same
    rw [← same] at fresh
    exact fresh (mem_map_of_mem present)
  unfold liberarEspacoLocal
  by_cases invalido : respostas.caminhoInvalido row.id = true
  · rw [if_pos invalido]
    have stays : carimbavel respostas row = false := by simp [carimbavel, invalido]
    refine ⟨whole', ?_, apagar, ?_, ?_, ids, clips, objetos⟩
    · rw [queue, filter_append, append_assoc]
      simp [stays]
    · intro other present
      exact porVir other (mem_cons_of_mem _ present)
    · intro other present
      rcases mem_append.mp present with before | last
      · exact lidos other before
      · rw [mem_singleton.mp last]
        simp [liberavel, invalido]
  · have invalido := Bool.eq_false_of_not_eq_true invalido
    rw [invalido, if_neg (by simp)]
    have porVir' : ∀ other ∈ rest,
        semArquivo s.arquivos row.id other.id = inicio.arquivos other.id := by
      intro other present
      rw [semArquivo_other _ _ _ (apart other present)]
      exact porVir other (mem_cons_of_mem _ present)
    have lidos' : ∀ other ∈ read ++ [row], (!respostas.caminhoInvalido other.id &&
        semArquivo s.arquivos row.id other.id) = false := by
      intro other present
      rcases mem_append.mp present with before | last
      · have gone := lidos other before
        unfold liberavel at gone
        unfold semArquivo
        rw [← Bool.and_assoc, gone, Bool.false_and]
      · rw [mem_singleton.mp last, semArquivo_same, Bool.and_false]
    by_cases carimba : respostas.carimba row.id = true
    · have leaves : carimbavel respostas row = true := by simp [carimbavel, invalido, carimba]
      rw [if_pos carimba]
      have first : row ∈ filaLiberar protection nuvemAtiva s := by
        rw [queue]
        exact mem_append_right _ mem_cons_self
      refine ⟨whole', ?_, ?_, porVir', lidos', ?_, clips, objetos⟩
      · rw [filaLiberar_semLocal protection nuvemAtiva s _ row.id respostas.agora rfl, queue,
          filter_head _ _ _ _ distinct, filter_append]
        simp [leaves]
      · rw [filaApagar_semLocal protection nuvemAtiva s _ row respostas.agora first rfl, apagar]
      · show (updateRow _ _ _).map _ = _
        rw [updateRow_ids _ _ (carimbar respostas.agora) (fun _ => rfl), ids]
    · have stays : carimbavel respostas row = false := by
        simp [carimbavel, invalido, Bool.eq_false_of_not_eq_true carimba]
      rw [if_neg carimba]
      refine ⟨whole', ?_, apagar, porVir', lidos', ids, clips, objetos⟩
      · show filaLiberar protection nuvemAtiva s = _
        rw [queue, filter_append, append_assoc]
        simp [stays]

theorem liberando_reads (inicio : Passagem) :
    Reads (visitar respostas protection .liberar) (filaLiberar protection nuvemAtiva)
      (liberavel respostas inicio) (carimbavel respostas)
      (Liberando respostas protection nuvemAtiva inicio) where
  queue_eq := fun _ _ _ here => here.queue
  again := fun read rest s row here known stays =>
    liberando_again respostas protection nuvemAtiva inicio s read rest row here known stays
  first := by
    intro read rest s row here
    constructor
    · show (liberarEspacoLocal respostas s row).2 = _
      rw [liberarEspacoLocal_did, liberavel, liberavel, here.porVir row mem_cons_self]
    · exact liberando_first respostas protection nuvemAtiva inicio s read rest row here

/-- What is known when the second queue was read so far, the first being empty. -/
structure Apagando (inicio : Passagem) (read rest : List Recording) (s : Passagem) : Prop where
  whole : read ++ rest = filaApagar protection nuvemAtiva inicio
  liberar : filaLiberar protection nuvemAtiva s = []
  queue : filaApagar protection nuvemAtiva s =
    (read.filter fun row => !apagavel respostas protection inicio row) ++ rest
  ids : s.acervo.recordings.map Recording.id =
    (inicio.acervo.recordings.map Recording.id).filter fun id =>
      id ∉ (read.filter (apagavel respostas protection inicio)).map Recording.id
  clips : s.acervo.clips = inicio.acervo.clips.filter fun clip =>
    clip.sourceRecordingId ∉ (read.filter (apagavel respostas protection inicio)).map Recording.id
  objetos : s.objetos = (read.filter (apagavel respostas protection inicio)).foldl
    (deleteCloudObject respostas) inicio.objetos

section

variable (inicio s : Passagem) (read rest : List Recording)
  (here : Apagando respostas protection nuvemAtiva inicio read rest s) (row : Recording)

include here

theorem Apagando.apagavel_eq
    (kept : row.id ∉ (read.filter (apagavel respostas protection inicio)).map Recording.id) :
    apagavel respostas protection s row = apagavel respostas protection inicio row := by
  unfold apagavel
  rw [here.clips, Retention.recusa_rest _ _ _ _ kept]

theorem apagando_kept (present : row ∈ filaApagar protection nuvemAtiva s) :
    row.id ∉ (read.filter (apagavel respostas protection inicio)).map Recording.id := by
  intro gone
  have inRows := ((mem_filaApagar protection nuvemAtiva s row).mp present).1
  have listed : row.id ∈ s.acervo.recordings.map Recording.id := mem_map_of_mem inRows
  rw [here.ids, mem_filter] at listed
  exact absurd gone (of_decide_eq_true listed.2)

end

theorem fora_snoc (ids : List Text) (last id : Text) :
    (decide (id ≠ last) && decide (id ∉ ids)) = decide (id ∉ ids ++ [last]) := by
  rw [← Bool.decide_and]
  apply decide_eq_decide.mpr
  rw [mem_append, mem_singleton, not_or]
  exact And.comm

theorem apagando_first (read rest : List Recording) (row : Recording)
    (here : Apagando respostas protection nuvemAtiva inicio read (row :: rest) s) :
    (deleteRecording respostas protection s row).2 = apagavel respostas protection inicio row ∧
      Apagando respostas protection nuvemAtiva inicio (read ++ [row]) rest
        (deleteRecording respostas protection s row).1 := by
  have present : row ∈ filaApagar protection nuvemAtiva s := by
    rw [here.queue]
    exact mem_append_right _ mem_cons_self
  have same := here.apagavel_eq respostas protection nuvemAtiva inicio s read _ row
    (apagando_kept respostas protection nuvemAtiva inicio s read _ here row present)
  have did := deleteRecording_did respostas protection s row
  rw [same] at did
  refine ⟨did, ?_⟩
  have distinct : ((read ++ row :: rest).map Recording.id).Nodup := by
    rw [here.whole]
    exact filaApagar_ids protection nuvemAtiva inicio
  obtain ⟨whole, liberar, queue, ids, clips, objetos⟩ := here
  have whole' : (read ++ [row]) ++ rest = filaApagar protection nuvemAtiva inicio := by
    rw [append_assoc]
    exact whole
  by_cases leaves : apagavel respostas protection inicio row = true
  · have goes : deleteRecording respostas protection s row =
        ({ acervo := s.acervo.semGravacao row.id
           arquivos := semArquivo s.arquivos row.id
           objetos := deleteCloudObject respostas s.objetos row }, true) := by
      have livre := leaves
      rw [← same, apagavel, Bool.and_eq_true, Bool.not_eq_true', Bool.not_eq_true'] at livre
      rw [deleteRecording, livre.1, livre.2]
      rfl
    rw [goes]
    obtain ⟨primeira, segunda⟩ := filas_semGravacao protection nuvemAtiva s
      { acervo := s.acervo.semGravacao row.id
        arquivos := semArquivo s.arquivos row.id
        objetos := deleteCloudObject respostas s.objetos row } row.id rfl
    have grown : (read ++ [row]).filter (apagavel respostas protection inicio) =
        read.filter (apagavel respostas protection inicio) ++ [row] := by
      simp [leaves]
    refine ⟨whole', ?_, ?_, ?_, ?_, ?_⟩
    · rw [primeira, liberar]
      rfl
    · rw [segunda, queue, filter_head _ _ _ _ distinct, filter_append]
      simp [leaves]
    · show (s.acervo.recordings.filter _).map _ = _
      rw [grown, map_append]
      have swap : (s.acervo.recordings.filter fun other => other.id ≠ row.id).map Recording.id =
          (s.acervo.recordings.map Recording.id).filter fun id => id ≠ row.id := by
        rw [filter_map]
        rfl
      rw [swap, ids, filter_filter]
      congr 1
      funext id
      exact fora_snoc _ row.id id
    · show s.acervo.clips.filter _ = _
      rw [grown, map_append, clips, filter_filter]
      congr 1
      funext clip
      exact fora_snoc _ row.id clip.sourceRecordingId
    · rw [grown, foldl_append, objetos]
      rfl
  · have stays := Bool.eq_false_of_not_eq_true leaves
    have goes : deleteRecording respostas protection s row = (s, false) := by
      rw [← same] at stays
      unfold deleteRecording
      unfold apagavel at stays
      grind
    have grown : (read ++ [row]).filter (apagavel respostas protection inicio) =
        read.filter (apagavel respostas protection inicio) := by
      simp [stays]
    rw [goes]
    refine ⟨whole', liberar, ?_, ?_, ?_, ?_⟩
    · rw [queue, filter_append, append_assoc]
      simp [stays]
    · rw [grown, ids]
    · rw [grown, clips]
    · rw [grown, objetos]

theorem apagando_again (read rest : List Recording) (row : Recording)
    (here : Apagando respostas protection nuvemAtiva inicio read rest s) (known : row ∈ read)
    (stays : apagavel respostas protection inicio row = false) :
    deleteRecording respostas protection s row = (s, false) := by
  have present : row ∈ filaApagar protection nuvemAtiva s := by
    rw [here.queue]
    apply mem_append_left
    exact mem_filter.mpr ⟨known, by simp [stays]⟩
  have same := here.apagavel_eq respostas protection nuvemAtiva inicio s read _ row
    (apagando_kept respostas protection nuvemAtiva inicio s read _ here row present)
  rw [← same] at stays
  unfold deleteRecording
  unfold apagavel at stays
  grind

theorem apagando_reads (inicio : Passagem) :
    Reads (visitar respostas protection .apagar) (filaApagar protection nuvemAtiva)
      (apagavel respostas protection inicio) (apagavel respostas protection inicio)
      (Apagando respostas protection nuvemAtiva inicio) where
  queue_eq := fun _ _ _ here => here.queue
  again := fun read rest s row here known stays =>
    apagando_again respostas protection nuvemAtiva inicio s read rest row here known stays
  first := fun read rest s row here =>
    apagando_first respostas protection nuvemAtiva inicio s read rest row here

end Filas

end DracVms.DiskUsage
