import DracVms.CloudStorage.OffloadSafety
import DracVms.CloudStorage.StoragePurge

namespace DracVms.StoragePurge

open List Json Database OffloadSweep Runs

section Chaves

theorem first_cut (cut : Char) (a b c d : Text) (noA : cut ∉ a) (noC : cut ∉ c)
    (same : a ++ cut :: b = c ++ cut :: d) : a = c ∧ b = d := by
  rcases append_eq_append_iff.mp same with ⟨more, left, right⟩ | ⟨more, left, right⟩
  · cases more with
    | nil =>
      rw [append_nil] at left
      exact ⟨left.symm, (List.cons.inj right).2⟩
    | cons head more =>
      rw [cons_append, List.cons.injEq] at right
      rw [left, ← right.1] at noC
      exact absurd (mem_append_right _ mem_cons_self) noC
  · cases more with
    | nil =>
      rw [append_nil] at left
      exact ⟨left, (List.cons.inj right).2.symm⟩
    | cons head more =>
      rw [cons_append, List.cons.injEq] at right
      rw [left, ← right.1] at noA
      exact absurd (mem_append_right _ mem_cons_self) noA

theorem last_cut (cut : Char) (a b c d : Text) (noB : cut ∉ b) (noD : cut ∉ d)
    (same : a ++ cut :: b = c ++ cut :: d) : a = c := by
  have turned := congrArg List.reverse same
  simp only [reverse_append, reverse_cons, append_assoc, singleton_append] at turned
  have cuts := first_cut cut b.reverse a.reverse d.reverse c.reverse (by simpa using noB)
    (by simpa using noD) turned
  exact reverse_injective cuts.2

theorem extensao_form (filePath : Text) : ∃ fim, '.' ∉ fim ∧ extensao filePath = '.' :: fim := by
  unfold extensao
  dsimp only
  split
  · refine ⟨_, ?_, rfl⟩
    intro member
    have kept := mem_takeWhile_imp (mem_reverse.mp member)
    simp at kept
  · exact ⟨['m', 'p', '4'], by decide, rfl⟩

theorem buildCloudKey_id (a b : Pendente) (semA : SemBarra a) (semB : SemBarra b)
    (same : buildCloudKey a = buildCloudKey b) : a.id = b.id := by
  obtain ⟨fimA, noA, formA⟩ := extensao_form a.filePath
  obtain ⟨fimB, noB, formB⟩ := extensao_form b.filePath
  unfold buildCloudKey at same
  rw [formA, formB] at same
  simp only [append_assoc, singleton_append, append_cancel_left_eq] at same
  have cut := (first_cut '/' _ _ _ _ semA.2 semB.2 same).2
  exact last_cut '.' _ _ _ _ noA noB cut

end Chaves

section Integridade

variable {Place : Type} (placeOf : Option Text → Place)

/-- The object of the row is there, in a storage that exists, with the size of the local file. -/
def Respaldada (s : Sistema Place) (row : Recording) : Prop :=
  StorageExiste s.storages row.cloudStorageId ∧
    ∃ chave objeto, row.cloudKey = some chave ∧
      s.nuvem.objetos (placeOf row.cloudStorageId) chave = some objeto ∧
      ∀ bytes, s.nuvem.arquivos row.filePath = some bytes → bytes = objeto

/-- No other recording would write to the key. -/
def ChaveSua (row : Recording) : Prop :=
  ∀ chave, row.cloudKey = some chave → ∀ rec, SemBarra rec → buildCloudKey rec = chave →
    rec.id = row.id

structure LinhaOk (s : Sistema Place) (row : Recording) : Prop where
  uuid : SemBarra (pendenteDe row)
  soLocal : row.cloudKey = none → (s.nuvem.arquivos row.filePath).isSome = true
  respaldo : row.cloudKey.isSome = true → Respaldada placeOf s row
  chave : ChaveSua row

def MedidaCerta (s : Sistema Place) (rec : Pendente) (tamanho : Nat) : Prop :=
  ∀ row ∈ s.nuvem.linhas, row.id = rec.id →
    ∀ bytes, s.nuvem.arquivos row.filePath = some bytes → bytes = tamanho

def EnvioOk (s : Sistema Place) (destino : Storage) (e : Envio) : Prop :=
  match e.fase with
  | .retirado => True
  | .medido tamanho => MedidaCerta s e.gravacao tamanho
  | .enviado tamanho => MedidaCerta s e.gravacao tamanho
  | .confirmado => ∃ objeto,
      s.nuvem.objetos (placeOf destino.id) (buildCloudKey e.gravacao) = some objeto ∧
        MedidaCerta s e.gravacao objeto

/-- What the prune may still unlink. -/
def aRemover : Ciclo → List Pendente
  | .podando candidatas => candidatas
  | .marcando _ candidatas => candidatas
  | _ => []

def FilaOk (s : Sistema Place) (rec : Pendente) : Prop :=
  SemBarra rec ∧ ∀ row ∈ s.nuvem.linhas, row.id = rec.id →
    pendenteDe row = rec ∧ row.cloudKey = none

structure CandidataOk (s : Sistema Place) (rec : Pendente) : Prop where
  podavel : ∀ row ∈ s.nuvem.linhas, row.filePath = rec.filePath → row.id = rec.id ∧ Podavel row
  existe : (s.nuvem.arquivos rec.filePath).isSome = true →
    ∃ row ∈ s.nuvem.linhas, row.filePath = rec.filePath

def CicloOk (s : Sistema Place) : Prop :=
  match s.nuvem.ciclo with
  | .enviando destino fila emVoo =>
    (∀ rec ∈ emVoo.map Envio.gravacao ++ fila, FilaOk s rec) ∧
      ∀ e ∈ emVoo, EnvioOk placeOf s destino e
  | ciclo => ∀ rec ∈ aRemover ciclo, CandidataOk s rec

structure Integro (s : Sistema Place) : Prop where
  ids : (s.nuvem.linhas.map Recording.id).Nodup
  caminhos : (s.nuvem.linhas.map Recording.filePath).Nodup
  recs : ((recsDoCiclo s.nuvem.ciclo).map Pendente.id).Nodup
  linha : ∀ row ∈ s.nuvem.linhas, LinhaOk placeOf s row
  ciclo : CicloOk placeOf s

def objetoFiel (s : Sistema Place) (i : Nat) : Bool :=
  match s.nuvem.ciclo with
  | .enviando destino _ emVoo =>
    match emVoo[i]? with
    | some ⟨rec, .enviado tamanho⟩ =>
      (s.nuvem.objetos (placeOf destino.id) (buildCloudKey rec)).all (· = tamanho)
    | _ => true
  | _ => true

/-- The statement that comes next is about this storage. -/
def Expurgo.limpa : Expurgo → Option Text → Bool
  | .limpando storage, some id => decide (id = storage)
  | _, _ => false

def Expurgo.apaga : Expurgo → Option Text → Bool
  | .apagando storage, some id => decide (id = storage)
  | _, _ => false

/-- When the loops may cross: no row is marked missing, and no row loses its cloud columns, while the
prune still has its file to unlink; no row loses them without its local file; no row names a storage
that goes; and a HEAD that tells no size is of an object of the right one. -/
def Separado (s : Sistema Place) : Passo → Prop
  | .ciclo (.conferir i _ informaTamanho) => informaTamanho = true ∨ objetoFiel placeOf s i = true
  | .marcarSumida id _ => id ∉ (aRemover s.nuvem.ciclo).map Pendente.id
  | .limparNuvem => ∀ row ∈ s.nuvem.linhas, s.expurgo.limpa row.cloudStorageId = true →
      (s.nuvem.arquivos row.filePath).isSome = true ∧
        row.id ∉ (aRemover s.nuvem.ciclo).map Pendente.id
  | .apagarStorage => ∀ row ∈ s.nuvem.linhas, s.expurgo.apaga row.cloudStorageId = false
  | _ => True

variable {placeOf} {s t : Sistema Place} {rec : Pendente}

theorem FilaOk.mono (ok : FilaOk s rec)
    (origem : ∀ row ∈ t.nuvem.linhas, row.id = rec.id → ∃ old ∈ s.nuvem.linhas, pendenteDe row =
      pendenteDe old ∧ (old.cloudKey = none → row.cloudKey = none)) :
    FilaOk t rec := by
  refine ⟨ok.1, ?_⟩
  intro row member same
  obtain ⟨old, inOld, parte, chave⟩ := origem row member same
  have sameId : old.id = rec.id := by
    have ids := congrArg Pendente.id parte
    exact ids.symm.trans same
  obtain ⟨igual, livre⟩ := ok.2 old inOld sameId
  exact ⟨parte.trans igual, chave livre⟩

variable {tamanho : Nat}

theorem MedidaCerta.mono (ok : MedidaCerta s rec tamanho)
    (origem : ∀ row ∈ t.nuvem.linhas, row.id = rec.id → ∃ old ∈ s.nuvem.linhas, pendenteDe row =
      pendenteDe old ∧ ∀ bytes, t.nuvem.arquivos old.filePath = some bytes →
      s.nuvem.arquivos old.filePath = some bytes) : MedidaCerta t rec tamanho := by
  intro row member same bytes presente
  obtain ⟨old, inOld, parte, arquivos⟩ := origem row member same
  have ids : row.id = old.id := congrArg Pendente.id parte
  have caminhos : row.filePath = old.filePath := congrArg Pendente.filePath parte
  rw [caminhos] at presente
  exact ok old inOld (ids.symm.trans same) bytes (arquivos bytes presente)

/-- Where the rows of a state come from, when nothing new was recorded. -/
structure Vem (s t : Sistema Place) : Prop where
  origem : ∀ row ∈ t.nuvem.linhas, ∃ old ∈ s.nuvem.linhas, pendenteDe row = pendenteDe old ∧
    (old.cloudKey = none → row.cloudKey = none) ∧
    (old.id ∈ (aRemover s.nuvem.ciclo).map Pendente.id → Podavel old → Podavel row)
  arquivos : ∀ row ∈ s.nuvem.linhas, ∀ bytes, t.nuvem.arquivos row.filePath = some bytes →
    s.nuvem.arquivos row.filePath = some bytes
  restam : ∀ rec ∈ aRemover s.nuvem.ciclo, (t.nuvem.arquivos rec.filePath).isSome = true →
    (s.nuvem.arquivos rec.filePath).isSome = true ∧
      ∀ row ∈ s.nuvem.linhas, row.filePath = rec.filePath → Podavel row →
        ∃ new ∈ t.nuvem.linhas, new.filePath = rec.filePath

theorem Vem.candidata (vem : Vem s t) (member : rec ∈ aRemover s.nuvem.ciclo)
    (ok : CandidataOk s rec) : CandidataOk t rec := by
  constructor
  · intro row inLinhas caminho
    obtain ⟨old, inOld, parte, -, podavel⟩ := vem.origem row inLinhas
    have ids : row.id = old.id := congrArg Pendente.id parte
    have caminhos : row.filePath = old.filePath := congrArg Pendente.filePath parte
    obtain ⟨same, antes⟩ := ok.podavel old inOld (caminhos.symm.trans caminho)
    refine ⟨ids.trans same, podavel ?_ antes⟩
    rw [same]
    exact mem_map_of_mem member
  · intro presente
    obtain ⟨antes, ficam⟩ := vem.restam rec member presente
    obtain ⟨row, inLinhas, caminho⟩ := ok.existe antes
    exact ficam row inLinhas caminho (ok.podavel row inLinhas caminho).2

theorem Vem.medida (vem : Vem s t) (ok : MedidaCerta s rec tamanho) :
    MedidaCerta t rec tamanho := by
  apply ok.mono
  intro row member _
  obtain ⟨old, inOld, parte, -⟩ := vem.origem row member
  exact ⟨old, inOld, parte, vem.arquivos old inOld⟩

theorem EnvioOk.mono {destino : Storage} {e : Envio} (ok : EnvioOk placeOf s destino e)
    (medidas : ∀ tamanho, MedidaCerta s e.gravacao tamanho → MedidaCerta t e.gravacao tamanho)
    (objetos : e.fase = .confirmado → ∀ objeto,
      s.nuvem.objetos (placeOf destino.id) (buildCloudKey e.gravacao) = some objeto →
      t.nuvem.objetos (placeOf destino.id) (buildCloudKey e.gravacao) = some objeto) :
    EnvioOk placeOf t destino e := by
  unfold EnvioOk at ok ⊢
  cases fase : e.fase with
  | retirado => trivial
  | medido tamanho | enviado tamanho =>
    rw [fase] at ok
    exact medidas tamanho ok
  | confirmado =>
    rw [fase] at ok
    obtain ⟨objeto, presente, medida⟩ := ok
    exact ⟨objeto, objetos fase objeto presente, medidas objeto medida⟩

/-- What the cycle has in hand stays in order. -/
theorem CicloOk.vem (ok : CicloOk placeOf s) (vem : Vem s t) (ciclo : t.nuvem.ciclo = s.nuvem.ciclo)
    (objetos : t.nuvem.objetos = s.nuvem.objetos) : CicloOk placeOf t := by
  unfold CicloOk at ok ⊢
  rw [ciclo]
  have candidata : ∀ rec ∈ aRemover s.nuvem.ciclo, CandidataOk s rec → CandidataOk t rec :=
    fun _ member => vem.candidata member
  cases estado : s.nuvem.ciclo with
  | parado => nofun
  | enviando destino fila emVoo =>
    rw [estado] at ok
    constructor
    · intro rec member
      apply (ok.1 rec member).mono
      intro row inLinhas _
      obtain ⟨old, inOld, parte, chave, -⟩ := vem.origem row inLinhas
      exact ⟨old, inOld, parte, chave⟩
    · intro e member
      apply (ok.2 e member).mono fun _ => vem.medida
      rw [objetos]
      exact fun _ _ => id
  | podando candidatas | marcando atual candidatas =>
    rw [estado] at ok candidata
    intro rec member
    exact candidata rec member (ok rec member)

theorem mapear_integro (ok : Integro placeOf s) (mudar : Recording → Recording)
    (linhas : t.nuvem.linhas = s.nuvem.linhas.map mudar) (ciclo : t.nuvem.ciclo = s.nuvem.ciclo)
    (objetos : t.nuvem.objetos = s.nuvem.objetos) (arquivos : t.nuvem.arquivos = s.nuvem.arquivos)
    (parte : ∀ row, pendenteDe (mudar row) = pendenteDe row)
    (livre : ∀ row, row.cloudKey = none → (mudar row).cloudKey = none)
    (podavel : ∀ row ∈ s.nuvem.linhas, row.id ∈ (aRemover s.nuvem.ciclo).map Pendente.id →
      Podavel row → Podavel (mudar row))
    (linha : ∀ row ∈ s.nuvem.linhas, LinhaOk placeOf s row → LinhaOk placeOf t (mudar row)) :
    Integro placeOf t := by
  have vem : Vem s t := by
    refine ⟨?_, ?_, ?_⟩
    · intro row member
      rw [linhas] at member
      obtain ⟨old, inOld, rfl⟩ := mem_map.mp member
      exact ⟨old, inOld, parte old, livre old, podavel old inOld⟩
    · intro row _ bytes presente
      rw [arquivos] at presente
      exact presente
    · intro rec _ presente
      rw [arquivos] at presente
      refine ⟨presente, ?_⟩
      intro row member caminho _
      refine ⟨mudar row, ?_, (congrArg Pendente.filePath (parte row)).trans caminho⟩
      rw [linhas]
      exact mem_map_of_mem member
  have sameIds : t.nuvem.linhas.map Recording.id = s.nuvem.linhas.map Recording.id := by
    rw [linhas, map_map]
    apply map_congr_left
    intro row _
    exact congrArg Pendente.id (parte row)
  have sameCaminhos : t.nuvem.linhas.map Recording.filePath =
      s.nuvem.linhas.map Recording.filePath := by
    rw [linhas, map_map]
    apply map_congr_left
    intro row _
    exact congrArg Pendente.filePath (parte row)
  refine ⟨sameIds ▸ ok.ids, sameCaminhos ▸ ok.caminhos, ?_, ?_, ok.ciclo.vem vem ciclo objetos⟩
  · rw [ciclo]
    exact ok.recs
  · intro row member
    rw [linhas] at member
    obtain ⟨old, inOld, rfl⟩ := mem_map.mp member
    exact linha old inOld (ok.linha old inOld)

theorem filtrar_integro (ok : Integro placeOf s) (fica : Recording → Bool)
    (linhas : t.nuvem.linhas = s.nuvem.linhas.filter fica) (ciclo : t.nuvem.ciclo = s.nuvem.ciclo)
    (objetos : t.nuvem.objetos = s.nuvem.objetos) (storages : t.storages = s.storages)
    (arquivos : ∀ row ∈ s.nuvem.linhas, fica row = true → t.nuvem.arquivos row.filePath =
      s.nuvem.arquivos row.filePath)
    (menos : ∀ caminho bytes, t.nuvem.arquivos caminho = some bytes → s.nuvem.arquivos caminho =
      some bytes)
    (restam : ∀ row ∈ s.nuvem.linhas, (t.nuvem.arquivos row.filePath).isSome = true → Podavel row →
      fica row = true) :
    Integro placeOf t := by
  have vem : Vem s t := by
    refine ⟨?_, ?_, ?_⟩
    · intro row member
      rw [linhas] at member
      exact ⟨row, mem_of_mem_filter member, rfl, id, fun _ => id⟩
    · intro row _ bytes
      exact menos row.filePath bytes
    · intro rec _ presente
      constructor
      · obtain ⟨bytes, some⟩ := Option.isSome_iff_exists.mp presente
        rw [menos _ _ some]
        rfl
      · intro row member caminho podavel
        refine ⟨row, ?_, caminho⟩
        rw [linhas]
        rw [← caminho] at presente
        exact mem_filter.mpr ⟨member, restam row member presente podavel⟩
  have fewer : t.nuvem.linhas.Sublist s.nuvem.linhas := by
    rw [linhas]
    exact filter_sublist
  refine ⟨ok.ids.sublist (fewer.map _), ok.caminhos.sublist (fewer.map _), ?_, ?_,
    ok.ciclo.vem vem ciclo objetos⟩
  · rw [ciclo]
    exact ok.recs
  · intro row member
    rw [linhas] at member
    obtain ⟨inLinhas, kept⟩ := mem_filter.mp member
    obtain ⟨uuid, soLocal, respaldo, chave⟩ := ok.linha row inLinhas
    refine ⟨uuid, ?_, ?_, chave⟩
    · rw [arquivos row inLinhas kept]
      exact soLocal
    · intro nomeada
      unfold Respaldada
      rw [arquivos row inLinhas kept, objetos, storages]
      exact respaldo nomeada

theorem linhaOk_of {row : Recording} (ok : LinhaOk placeOf s row)
    (arquivos : t.nuvem.arquivos = s.nuvem.arquivos) (objetos : t.nuvem.objetos = s.nuvem.objetos)
    (storages : t.storages = s.storages) : LinhaOk placeOf t row := by
  obtain ⟨uuid, soLocal, respaldo, chave⟩ := ok
  refine ⟨uuid, ?_, ?_, chave⟩
  · rw [arquivos]
    exact soLocal
  · unfold Respaldada
    rw [arquivos, objetos, storages]
    exact respaldo

/-- The cycle moves on, and nothing else does. -/
theorem trocarCiclo_integro (ok : Integro placeOf s) (linhas : t.nuvem.linhas = s.nuvem.linhas)
    (arquivos : t.nuvem.arquivos = s.nuvem.arquivos) (objetos : t.nuvem.objetos = s.nuvem.objetos)
    (storages : t.storages = s.storages) (recs : ((recsDoCiclo t.nuvem.ciclo).map Pendente.id).Nodup)
    (ciclo : CicloOk placeOf t) : Integro placeOf t := by
  refine ⟨?_, ?_, recs, ?_, ciclo⟩
  · rw [linhas]
    exact ok.ids
  · rw [linhas]
    exact ok.caminhos
  · rw [linhas]
    intro row member
    exact linhaOk_of (ok.linha row member) arquivos objetos storages

variable {rec : Pendente}

section Enviando

variable {destino : Storage} {fila : List Pendente} {emVoo : List Envio}

theorem set_here (list : List Pendente) (i : Nat) (rec : Pendente) (here : list[i]? = some rec) :
    list.set i rec = list := by
  induction list generalizing i with
  | nil => rfl
  | cons head rest ih =>
    cases i with
    | zero =>
      rw [List.getElem?_cons_zero, Option.some.injEq] at here
      rw [here, set_cons_zero]
    | succ i =>
      rw [set_cons_succ, ih i here]

variable {i : Nat}

theorem gravacoes_set {e : Envio} (here : emVoo[i]? = some e) (fase : Fase) :
    (emVoo.set i ⟨e.gravacao, fase⟩).map Envio.gravacao = emVoo.map Envio.gravacao := by
  rw [map_set]
  apply set_here
  rw [List.getElem?_map, here]
  rfl

theorem Integro.enviando (ok : Integro placeOf s)
    (ciclo : s.nuvem.ciclo = .enviando destino fila emVoo) :
    ((emVoo.map Envio.gravacao ++ fila).map Pendente.id).Nodup ∧
      (∀ rec ∈ emVoo.map Envio.gravacao ++ fila, FilaOk s rec) ∧
      ∀ e ∈ emVoo, EnvioOk placeOf s destino e := by
  have recs := ok.recs
  have envios := ok.ciclo
  unfold CicloOk at envios
  rw [ciclo] at recs envios
  exact ⟨recs, envios⟩

/-- An upload that moves on. -/
theorem atualizarEnvio_integro (ok : Integro placeOf s)
    (ciclo : s.nuvem.ciclo = .enviando destino fila emVoo) {e : Envio} (here : emVoo[i]? = some e)
    (fase : Fase) (envio : EnvioOk placeOf s destino ⟨e.gravacao, fase⟩) : Integro placeOf { s with
      nuvem := atualizarEnvio s.nuvem destino fila emVoo i ⟨e.gravacao, fase⟩ } := by
  obtain ⟨okRecs, okCiclo⟩ := ok.enviando ciclo
  have same := gravacoes_set here fase
  refine trocarCiclo_integro ok rfl rfl rfl rfl ?_ ?_
  · show ((emVoo.set i _).map Envio.gravacao ++ fila).map Pendente.id |>.Nodup
    rw [same]
    exact okRecs
  · show (∀ rec ∈ (emVoo.set i _).map Envio.gravacao ++ fila, _) ∧ ∀ e' ∈ emVoo.set i _, _
    rw [same]
    refine ⟨okCiclo.1, ?_⟩
    intro e' member
    rcases mem_or_eq_of_mem_set member with before | rfl
    · exact okCiclo.2 e' before
    · exact envio

/-- An upload that is over, whatever became of it. -/
theorem largarEnvio_integro (ok : Integro placeOf s)
    (ciclo : s.nuvem.ciclo = .enviando destino fila emVoo)
    (i : Nat) (inverificaveis : List Text) :
    Integro placeOf { s with
      nuvem := { largarEnvio s.nuvem destino fila emVoo i with
        inverificaveis := inverificaveis } } := by
  obtain ⟨okRecs, okCiclo⟩ := ok.enviando ciclo
  have fewer : ((emVoo.eraseIdx i).map Envio.gravacao ++ fila).Sublist
      (emVoo.map Envio.gravacao ++ fila) :=
    ((eraseIdx_sublist emVoo i).map _).append (List.Sublist.refl _)
  refine trocarCiclo_integro ok rfl rfl rfl rfl ?_ ?_
  · exact okRecs.sublist (fewer.map _)
  · constructor
    · intro rec member
      exact okCiclo.1 rec (fewer.subset member)
    · intro e member
      exact okCiclo.2 e (mem_of_mem_eraseIdx member)

theorem puxar_integro (ok : Integro placeOf s)
    (ciclo : s.nuvem.ciclo = .enviando destino (rec :: fila) emVoo) : Integro placeOf { s with
      nuvem := { s.nuvem with ciclo := .enviando destino fila (emVoo ++ [⟨rec, .retirado⟩]) } } := by
  obtain ⟨okRecs, okCiclo⟩ := ok.enviando ciclo
  have same : (emVoo ++ [(⟨rec, .retirado⟩ : Envio)]).map Envio.gravacao ++ fila =
      emVoo.map Envio.gravacao ++ rec :: fila := by
    rw [map_append, append_assoc]
    rfl
  refine trocarCiclo_integro ok rfl rfl rfl rfl ?_ ?_
  · show (((emVoo ++ _).map Envio.gravacao ++ fila).map Pendente.id).Nodup
    rw [same]
    exact okRecs
  · show (∀ other ∈ (emVoo ++ _).map Envio.gravacao ++ fila, _) ∧ ∀ e ∈ emVoo ++ _, _
    rw [same]
    refine ⟨okCiclo.1, ?_⟩
    intro e member
    rcases mem_append.mp member with before | new
    · exact okCiclo.2 e before
    · rw [mem_singleton.mp new]
      exact trivial

theorem medir_envio (ok : Integro placeOf s) (ciclo : s.nuvem.ciclo = .enviando destino fila emVoo)
    {fase : Fase} (here : emVoo[i]? = some ⟨rec, fase⟩)
    (lido : s.nuvem.arquivos rec.filePath = some tamanho) : MedidaCerta s rec tamanho := by
  obtain ⟨-, okCiclo⟩ := ok.enviando ciclo
  have inRecs : rec ∈ emVoo.map Envio.gravacao ++ fila :=
    mem_append_left _ (mem_map_of_mem (List.mem_of_getElem? here))
  intro row member same bytes presente
  have parte := ((okCiclo.1 rec inRecs).2 row member same).1
  have caminho : row.filePath = rec.filePath := congrArg Pendente.filePath parte
  rw [caminho, lido] at presente
  exact (Option.some.inj presente).symm

/-- A PUT writes to a key that no row has, and that no other upload writes to. -/
theorem enviar_integro (ok : Integro placeOf s) [DecidableEq Place]
    (ciclo : s.nuvem.ciclo = .enviando destino fila emVoo)
    (here : emVoo[i]? = some ⟨rec, .medido tamanho⟩) (bytes : Nat) : Integro placeOf { s with
      nuvem := { atualizarEnvio s.nuvem destino fila emVoo i ⟨rec, .enviado tamanho⟩ with
        objetos := guardarObjeto s.nuvem.objetos (placeOf destino.id) (buildCloudKey rec)
          (some bytes) } } := by
  obtain ⟨okRecs, okFila, okEnvios⟩ := ok.enviando ciclo
  have emMao := List.mem_of_getElem? here
  have inRecs : rec ∈ emVoo.map Envio.gravacao ++ fila :=
    mem_append_left _ (mem_map_of_mem emMao)
  obtain ⟨semBarra, livres⟩ := okFila rec inRecs
  have same := gravacoes_set here (.enviado tamanho)
  refine ⟨ok.ids, ok.caminhos, ?_, ?_, ?_, ?_⟩
  · show ((emVoo.set i _).map Envio.gravacao ++ fila).map Pendente.id |>.Nodup
    rw [same]
    exact okRecs
  · intro row member
    obtain ⟨uuid, soLocal, respaldo, chave⟩ := ok.linha row member
    refine ⟨uuid, soLocal, ?_, chave⟩
    intro nomeada
    obtain ⟨existe, key, objeto, named, presente, medida⟩ := respaldo nomeada
    refine ⟨existe, key, objeto, named, ?_, medida⟩
    show guardarObjeto _ _ _ _ _ _ = _
    unfold guardarObjeto
    rw [if_neg]
    · exact presente
    · rintro ⟨-, sameKey⟩
      have dono := chave key named rec semBarra sameKey.symm
      rw [(livres row member dono.symm).2] at named
      cases named
  · rw [same]
    exact okFila
  · intro e member
    rcases mem_or_eq_of_mem_set member with before | rfl
    · refine (okEnvios e before).mono (fun _ medida => medida) ?_
      intro fase objeto presente
      show guardarObjeto _ _ _ _ _ _ = _
      unfold guardarObjeto
      rw [if_neg]
      · exact presente
      · rintro ⟨-, sameKey⟩
        have barra := (okFila e.gravacao (mem_append_left _ (mem_map_of_mem before))).1
        have sameId := buildCloudKey_id _ _ barra semBarra sameKey
        have distinct : (emVoo.map fun e => e.gravacao.id).Nodup := by
          have whole : ((emVoo.map Envio.gravacao ++ fila).map Pendente.id).Nodup := okRecs
          rw [map_append, map_map] at whole
          exact (nodup_append.mp whole).1
        have one : e = ⟨rec, .medido tamanho⟩ :=
          inj_on_of_nodup_map distinct before emMao sameId
        rw [one] at fase
        cases fase
    · have antes := okEnvios _ emMao
      exact antes

/-- What a HEAD confirms has the size that was measured, if it tells the size or the bucket holds
it. -/
theorem conferir_objeto {place : Place} {chave : Text} {verificavel informaTamanho : Bool}
    (veredito : avaliarConfirmacao (headObject s.nuvem place chave verificavel informaTamanho)
      tamanho = .ok)
    (fiel : informaTamanho = true ∨ (s.nuvem.objetos place chave).all (· = tamanho) = true) :
    s.nuvem.objetos place chave = some tamanho := by
  have presente := headObject_confirma veredito
  obtain ⟨objeto, some⟩ := Option.isSome_iff_exists.mp presente
  rw [some]
  rcases fiel with informa | igual
  · unfold avaliarConfirmacao headObject at veredito
    simp only [informa, some, if_true] at veredito
    split at veredito
    · cases veredito
    · split at veredito
      · cases veredito
      · split at veredito
        · cases veredito
        · rename_i igual
          simpa using igual
  · simpa [some] using igual

/-- Recording a confirmed upload in its row. -/
theorem registrar_integro (ok : Integro placeOf s)
    (ciclo : s.nuvem.ciclo = .enviando destino fila emVoo)
    (here : emVoo[i]? = some ⟨rec, .confirmado⟩) (agora : Instant)
    (existe : StorageExiste s.storages destino.id) : Integro placeOf { s with
      nuvem := { largarEnvio s.nuvem destino fila emVoo i with
        linhas := updateRow s.nuvem.linhas rec.id fun row =>
          { row with
            cloudKey := some (buildCloudKey rec)
            cloudUploadedAt := some agora
            cloudStorageId := destino.id } } } := by
  obtain ⟨okRecs, okFila, okEnvios⟩ := ok.enviando ciclo
  have emMao := List.mem_of_getElem? here
  have inRecs : rec ∈ emVoo.map Envio.gravacao ++ fila :=
    mem_append_left _ (mem_map_of_mem emMao)
  obtain ⟨semBarra, livres⟩ := okFila rec inRecs
  obtain ⟨objeto, presente, medida⟩ := okEnvios _ emMao
  have fewer : ((emVoo.eraseIdx i).map Envio.gravacao ++ fila).Sublist
      (emVoo.map Envio.gravacao ++ fila) :=
    ((eraseIdx_sublist emVoo i).map _).append (List.Sublist.refl _)
  -- What is left in hand has other ids, so its rows are as they were.
  have outros : ∀ other ∈ (emVoo.eraseIdx i).map Envio.gravacao ++ fila, other.id ≠ rec.id := by
    obtain ⟨bound, at'⟩ := List.getElem?_eq_some_iff.mp here
    have perm := ((getElem_cons_eraseIdx_perm bound).map Envio.gravacao).append_right fila
    rw [at'] at perm
    have apart := (nodup_cons.mp ((perm.map Pendente.id).nodup_iff.mpr okRecs)).1
    intro other member same
    apply apart
    rw [← same]
    exact mem_map_of_mem member
  have mantidas : ∀ other ∈ (emVoo.eraseIdx i).map Envio.gravacao ++ fila, ∀ row ∈
      updateRow s.nuvem.linhas rec.id (fun row =>
        { row with
          cloudKey := some (buildCloudKey rec)
          cloudUploadedAt := some agora
          cloudStorageId := destino.id }), row.id = other.id → row ∈ s.nuvem.linhas := by
    intro other member row inNew same
    rcases mem_updateRow _ _ _ _ inNew with kept | ⟨old, -, oldId, rfl⟩
    · exact kept
    · exact absurd (same.symm.trans oldId) (outros other member)
  refine ⟨?_, ?_, okRecs.sublist (fewer.map _), ?_, ?_, ?_⟩
  · rw [updateRow_ids]
    · exact ok.ids
    · exact fun _ => rfl
  · rw [updateRow_paths]
    · exact ok.caminhos
    · exact fun _ => rfl
  · intro row member
    rcases mem_updateRow _ _ _ _ member with kept | ⟨old, inOld, oldId, rfl⟩
    · exact linhaOk_of (ok.linha row kept) rfl rfl rfl
    · obtain ⟨uuid, -, -, -⟩ := ok.linha old inOld
      refine ⟨uuid, nofun, ?_, ?_⟩
      · intro _
        refine ⟨existe, _, objeto, rfl, presente, ?_⟩
        exact medida old inOld oldId
      · intro chave named other barra key
        cases named
        rw [buildCloudKey_id other rec barra semBarra key]
        exact oldId.symm
  · intro other member
    obtain ⟨barra, linhas⟩ := okFila other (fewer.subset member)
    refine ⟨barra, ?_⟩
    intro row inNew same
    exact linhas row (mantidas other member row inNew same) same
  · intro e member
    have inHand : e.gravacao ∈ (emVoo.eraseIdx i).map Envio.gravacao ++ fila :=
      mem_append_left _ (mem_map_of_mem member)
    have medidas : ∀ tamanho, MedidaCerta s e.gravacao tamanho → MedidaCerta { s with
        nuvem := { largarEnvio s.nuvem destino fila emVoo i with
          linhas := updateRow s.nuvem.linhas rec.id fun row =>
            { row with
              cloudKey := some (buildCloudKey rec)
              cloudUploadedAt := some agora
              cloudStorageId := destino.id } } } e.gravacao tamanho := by
      intro tamanho certa row inNew same
      exact certa row (mantidas _ inHand row inNew same) same
    exact (okEnvios e (mem_of_mem_eraseIdx member)).mono medidas fun _ _ => id

end Enviando

section Selecao

/-- Rows that a query brings keep their distinct keys. -/
theorem consulta_ids (linhas : List Recording) (filtro : Recording → Bool) (n : Nat)
    (distintos : (linhas.map Recording.id).Nodup) :
    ((((byStart (linhas.filter filtro)).take n).map pendenteDe).map Pendente.id).Nodup := by
  have perm := (perm_insertionSort (fun a b : Recording => a.startedAt ≤ b.startedAt)
    (linhas.filter filtro)).map Recording.id
  have todas : ((byStart (linhas.filter filtro)).map Recording.id).Nodup :=
    perm.nodup_iff.mpr (distintos.sublist (filter_sublist.map _))
  rw [map_map]
  exact todas.sublist ((take_sublist _ _).map _)

theorem mem_consulta {linhas : List Recording} {filtro : Recording → Bool} {n : Nat}
    (member : rec ∈ ((byStart (linhas.filter filtro)).take n).map pendenteDe) :
    ∃ row ∈ linhas, filtro row = true ∧ pendenteDe row = rec := by
  obtain ⟨row, taken, same⟩ := mem_map.mp member
  have filtered := (mem_byStart _ _).mp (mem_of_mem_take taken)
  obtain ⟨inLinhas, passa⟩ := mem_filter.mp filtered
  exact ⟨row, inLinhas, passa, same⟩

variable (limites : Limites)

theorem iniciarCiclo_integro (ok : Integro placeOf s) (destino : Storage) (politica : StoragePolicy)
    (contou : Bool) : Integro placeOf { s with
      nuvem := { s.nuvem with
        ciclo := .enviando destino (pendentes limites s.nuvem politica contou) [] } } := by
  refine trocarCiclo_integro ok rfl rfl rfl rfl ?_ ?_
  · unfold pendentes
    dsimp only
    split
    · exact (consulta_ids s.nuvem.linhas _ _ ok.ids).sublist (filter_sublist.map _)
    · exact nodup_nil
  · refine ⟨?_, nofun⟩
    intro rec member
    unfold pendentes at member
    dsimp only at member
    split at member
    · obtain ⟨row, inLinhas, passa, rfl⟩ := mem_consulta (mem_of_mem_filter member)
      refine ⟨(ok.linha row inLinhas).uuid, ?_⟩
      intro other inOther same
      have one : other = row := inj_on_of_nodup_map ok.ids inOther inLinhas same
      rw [filtroPendente, Bool.and_eq_true, Option.isNone_iff_eq_none] at passa
      rw [one]
      exact ⟨rfl, passa.1⟩
    · cases member

theorem candidataDaPoda_podavel (corte : Int) (row : Recording)
    (candidata : candidataDaPoda corte row = true) : Podavel row := by
  simp only [candidataDaPoda, Bool.and_eq_true, Option.isNone_iff_eq_none] at candidata
  obtain ⟨⟨⟨nomeada, antiga⟩, noDisco⟩, vista⟩ := candidata
  refine ⟨nomeada, ?_, noDisco, vista⟩
  cases uploaded : row.cloudUploadedAt with
  | none =>
    rw [uploaded] at antiga
    cases antiga
  | some instant => rfl

theorem iniciarPoda_integro (ok : Integro placeOf s) (destino : Storage) (politica : StoragePolicy)
    (agora : Instant) : Integro placeOf { s with
      nuvem := { s.nuvem with
        ciclo := .podando (candidatasDaPoda s.nuvem destino politica agora) } } := by
  refine trocarCiclo_integro ok rfl rfl rfl rfl ?_ ?_
  · unfold candidatasDaPoda
    split
    · exact nodup_nil
    · exact consulta_ids s.nuvem.linhas _ _ ok.ids
  · intro rec member
    unfold candidatasDaPoda at member
    split at member
    · cases member
    · obtain ⟨row, inLinhas, passa, rfl⟩ := mem_consulta member
      refine ⟨?_, fun _ => ⟨row, inLinhas, rfl⟩⟩
      intro other inOther same
      have one : other = row := inj_on_of_nodup_map ok.caminhos inOther inLinhas same
      rw [one]
      exact ⟨rfl, candidataDaPoda_podavel _ row passa⟩

end Selecao

section Podando

variable {rec : Pendente} {candidatas : List Pendente}

section

variable (ok : Integro placeOf s)

include ok

theorem removerLocal_integro (ciclo : s.nuvem.ciclo = .podando (rec :: candidatas)) :
    Integro placeOf { s with
      nuvem := { s.nuvem with
        ciclo := .marcando rec candidatas
        arquivos := guardarArquivo s.nuvem.arquivos rec.filePath none } } := by
  have okCiclo := ok.ciclo
  have okRecs := ok.recs
  unfold CicloOk at okCiclo
  rw [ciclo] at okCiclo okRecs
  have menos : ∀ caminho bytes, guardarArquivo s.nuvem.arquivos rec.filePath none caminho =
      some bytes → caminho ≠ rec.filePath ∧ s.nuvem.arquivos caminho = some bytes := by
    intro caminho bytes presente
    unfold guardarArquivo at presente
    split at presente
    · cases presente
    · rename_i outro
      exact ⟨outro, presente⟩
  refine ⟨ok.ids, ok.caminhos, okRecs, ?_, ?_⟩
  · intro row member
    obtain ⟨uuid, soLocal, respaldo, chave⟩ := ok.linha row member
    refine ⟨uuid, ?_, ?_, chave⟩
    · intro semChave
      have outro : row.filePath ≠ rec.filePath := by
        intro same
        have nomeada := ((okCiclo rec mem_cons_self).podavel row member same).2.1
        rw [semChave] at nomeada
        cases nomeada
      show (guardarArquivo _ _ _ _).isSome = true
      rw [guardarArquivo, if_neg outro]
      exact soLocal semChave
    · intro nomeada
      obtain ⟨existe, key, objeto, named, presente, medida⟩ := respaldo nomeada
      refine ⟨existe, key, objeto, named, presente, ?_⟩
      intro bytes there
      exact medida bytes (menos _ _ there).2
  · intro other member
    obtain ⟨podavel, existe⟩ := okCiclo other (mem_cons_of_mem _ member)
    refine ⟨podavel, ?_⟩
    intro presente
    obtain ⟨bytes, there⟩ := Option.isSome_iff_exists.mp presente
    apply existe
    rw [(menos _ _ there).2]
    rfl

theorem pararCiclo_integro :
    Integro placeOf { s with nuvem := { s.nuvem with ciclo := .parado } } :=
  trocarCiclo_integro ok rfl rfl rfl rfl nodup_nil nofun

theorem pularCandidata_integro (ciclo : s.nuvem.ciclo = .podando (rec :: candidatas)) :
    Integro placeOf { s with nuvem := { s.nuvem with ciclo := .podando candidatas } } := by
  have okCiclo := ok.ciclo
  have okRecs := ok.recs
  unfold CicloOk at okCiclo
  rw [ciclo] at okCiclo okRecs
  refine trocarCiclo_integro ok rfl rfl rfl rfl (nodup_cons.mp okRecs).2 ?_
  intro other member
  obtain ⟨podavel, existe⟩ := okCiclo other (mem_cons_of_mem _ member)
  exact ⟨podavel, existe⟩

theorem updateRow_integro (id : Text) (mudar : Recording → Recording)
    (parte : ∀ row, pendenteDe (mudar row) = pendenteDe row)
    (chave : ∀ row, (mudar row).cloudKey = row.cloudKey)
    (storage : ∀ row, (mudar row).cloudStorageId = row.cloudStorageId)
    (fora : id ∉ (aRemover s.nuvem.ciclo).map Pendente.id ∨ ∀ row, Podavel row → Podavel (mudar row)) :
    Integro placeOf (comLinhas s (updateRow s.nuvem.linhas id mudar)) := by
  have conserva : ∀ row, LinhaOk placeOf s row → LinhaOk placeOf s (mudar row) := by
    intro row linha
    have ids : (mudar row).id = row.id := congrArg Pendente.id (parte row)
    have caminho : (mudar row).filePath = row.filePath := congrArg Pendente.filePath (parte row)
    obtain ⟨uuid, soLocal, respaldo, sua⟩ := linha
    refine ⟨?_, ?_, ?_, ?_⟩
    · rw [parte]
      exact uuid
    · rw [chave, caminho]
      exact soLocal
    · unfold Respaldada
      rw [chave, caminho, storage]
      exact respaldo
    · unfold ChaveSua
      rw [chave, ids]
      exact sua
  refine mapear_integro ok (fun row => if row.id = id then mudar row else row) rfl rfl rfl rfl
    ?_ ?_ ?_ ?_
  · intro row
    split
    · exact parte row
    · rfl
  · intro row livre
    split
    · rw [chave]
      exact livre
    · exact livre
  · intro row _ inPoda podavel
    split
    · rename_i same
      rcases fora with longe | mantem
      · rw [same] at inPoda
        exact absurd inPoda longe
      · exact mantem row podavel
    · exact podavel
  · intro row _ linha
    have outro : LinhaOk placeOf s (if row.id = id then mudar row else row) := by
      split
      · exact conserva row linha
      · exact linha
    exact linhaOk_of outro rfl rfl rfl

theorem marcarRemovido_integro (ciclo : s.nuvem.ciclo = .marcando rec candidatas) (agora : Instant) :
    Integro placeOf { s with
      nuvem := { s.nuvem with
        ciclo := .podando candidatas
        linhas := updateRow s.nuvem.linhas rec.id fun row =>
          { row with localDeletedAt := some agora } } } := by
  have okCiclo := ok.ciclo
  have okRecs := ok.recs
  unfold CicloOk at okCiclo
  rw [ciclo] at okCiclo okRecs
  obtain ⟨apart, distintos⟩ := nodup_cons.mp okRecs
  have adiante : Integro placeOf { s with
      nuvem := { s.nuvem with ciclo := .podando candidatas } } := by
    refine trocarCiclo_integro ok rfl rfl rfl rfl distintos ?_
    intro other member
    obtain ⟨podavel, existe⟩ := okCiclo other member
    exact ⟨podavel, existe⟩
  exact updateRow_integro adiante rec.id (fun row => { row with localDeletedAt := some agora })
    (fun _ => rfl) (fun _ => rfl) (fun _ => rfl) (Or.inl apart)

end

end Podando

section Acervo

theorem gravar_integro (ok : Integro placeOf s) (row : Recording) (bytes : Nat)
    (novo : IdNovo s row) (semChave : row.cloudKey = none)
    (caminhoNovo : row.filePath ∉ s.nuvem.linhas.map Recording.filePath)
    (livre : row.filePath ∉ s.nuvem.ciclo.caminhos) : Integro placeOf { s with
      nuvem := { s.nuvem with
        linhas := s.nuvem.linhas ++ [row]
        arquivos := guardarArquivo s.nuvem.arquivos row.filePath (some bytes) } } := by
  obtain ⟨idNovo, foraDoCiclo, uuid⟩ := novo
  have iguais : ∀ old ∈ s.nuvem.linhas,
      guardarArquivo s.nuvem.arquivos row.filePath (some bytes) old.filePath =
        s.nuvem.arquivos old.filePath := by
    intro old member
    rw [guardarArquivo, if_neg]
    intro same
    apply caminhoNovo
    rw [← same]
    exact mem_map_of_mem member
  refine ⟨?_, ?_, ok.recs, ?_, ?_⟩
  · rw [map_append, map_singleton]
    exact ok.ids.append (nodup_singleton _) (by simpa using idNovo)
  · rw [map_append, map_singleton]
    exact ok.caminhos.append (nodup_singleton _) (by simpa using caminhoNovo)
  · intro other member
    rcases mem_append.mp member with old | new
    · obtain ⟨uuid', soLocal, respaldo, chave⟩ := ok.linha other old
      refine ⟨uuid', ?_, ?_, chave⟩
      · show _ → (guardarArquivo _ _ _ _).isSome = true
        rw [iguais other old]
        exact soLocal
      · intro nomeada
        obtain ⟨existe, key, objeto, named, presente, medida⟩ := respaldo nomeada
        refine ⟨existe, key, objeto, named, presente, ?_⟩
        show ∀ bytes', guardarArquivo _ _ _ _ = some bytes' → _
        rw [iguais other old]
        exact medida
    · rw [mem_singleton.mp new]
      refine ⟨uuid, ?_, ?_, ?_⟩
      · intro _
        show (guardarArquivo _ _ _ _).isSome = true
        rw [guardarArquivo, if_pos rfl]
        rfl
      · simp [semChave]
      · intro chave named
        rw [semChave] at named
        cases named
  · have okCiclo := ok.ciclo
    unfold CicloOk at okCiclo ⊢
    have candidata : ∀ rec ∈ aRemover s.nuvem.ciclo, rec.filePath ∈ s.nuvem.ciclo.caminhos := by
      intro rec member
      cases ciclo : s.nuvem.ciclo with
      | parado | enviando destino fila emVoo =>
        rw [ciclo] at member
        cases member
      | podando candidatas | marcando atual candidatas =>
        rw [ciclo] at member
        exact mem_map_of_mem member
    have candidatas : ∀ rec ∈ aRemover s.nuvem.ciclo, CandidataOk s rec →
        CandidataOk { s with
          nuvem := { s.nuvem with
            linhas := s.nuvem.linhas ++ [row]
            arquivos := guardarArquivo s.nuvem.arquivos row.filePath (some bytes) } } rec := by
      intro rec member antes
      have outro : rec.filePath ≠ row.filePath := by
        intro same
        apply livre
        rw [← same]
        exact candidata rec member
      constructor
      · intro other inNew caminho
        rcases mem_append.mp inNew with old | new
        · exact antes.podavel other old caminho
        · rw [mem_singleton.mp new] at caminho
          exact absurd caminho.symm outro
      · show (guardarArquivo _ _ _ _).isSome = true → _
        rw [guardarArquivo, if_neg outro]
        intro presente
        obtain ⟨old, member, caminho⟩ := antes.existe presente
        exact ⟨old, mem_append_left _ member, caminho⟩
    have antigas : ∀ rec : Pendente, rec.id ∈ (recsDoCiclo s.nuvem.ciclo).map Pendente.id →
        ∀ other ∈ s.nuvem.linhas ++ [row], other.id = rec.id → other ∈ s.nuvem.linhas := by
      intro rec emMao other inNew same
      rcases mem_append.mp inNew with old | new
      · exact old
      · rw [mem_singleton.mp new] at same
        rw [← same] at emMao
        exact absurd emMao foraDoCiclo
    cases ciclo : s.nuvem.ciclo with
    | parado => simp [aRemover]
    | enviando destino fila emVoo =>
      rw [ciclo] at okCiclo antigas
      have medidas : ∀ rec ∈ emVoo.map Envio.gravacao ++ fila, ∀ tamanho,
          MedidaCerta s rec tamanho → MedidaCerta { s with
            nuvem := { s.nuvem with
              linhas := s.nuvem.linhas ++ [row]
              arquivos := guardarArquivo s.nuvem.arquivos row.filePath (some bytes) } } rec
            tamanho := by
        intro rec emMao tamanho certa other inNew same lidos presente
        have old := antigas rec (mem_map_of_mem emMao) other inNew same
        have presente : guardarArquivo _ _ _ _ = some lidos := presente
        rw [iguais other old] at presente
        exact certa other old same lidos presente
      constructor
      · intro rec member
        obtain ⟨barra, linhas⟩ := okCiclo.1 rec member
        refine ⟨barra, ?_⟩
        intro other inNew same
        exact linhas other (antigas rec (mem_map_of_mem member) other inNew same) same
      · intro e member
        have emMao : e.gravacao ∈ emVoo.map Envio.gravacao ++ fila :=
          mem_append_left _ (mem_map_of_mem member)
        exact (okCiclo.2 e member).mono (medidas _ emMao) fun _ _ => id
    | podando lista | marcando atual lista =>
      rw [ciclo] at okCiclo candidatas
      intro rec member
      exact candidatas rec member (okCiclo rec member)

theorem excluir_integro (ok : Integro placeOf s) (id : Text) (alvo : Recording)
    (found : s.nuvem.linhas.find? (fun row => row.id = id) = some alvo) : Integro placeOf { s with
      nuvem := { s.nuvem with
        linhas := s.nuvem.linhas.filter fun row => row.id ≠ id
        arquivos := guardarArquivo s.nuvem.arquivos alvo.filePath none } } := by
  have inLinhas := List.mem_of_find?_eq_some found
  have named : alvo.id = id := by simpa using List.find?_some found
  have outro : ∀ row ∈ s.nuvem.linhas, row.id ≠ id → row.filePath ≠ alvo.filePath := by
    intro row member apart same
    have one : row = alvo := inj_on_of_nodup_map ok.caminhos member inLinhas same
    rw [one] at apart
    exact apart named
  have menos : ∀ caminho bytes, guardarArquivo s.nuvem.arquivos alvo.filePath none caminho =
      some bytes → s.nuvem.arquivos caminho = some bytes := by
    intro caminho bytes presente
    unfold guardarArquivo at presente
    split at presente
    · cases presente
    · exact presente
  refine filtrar_integro ok (fun row => decide (row.id ≠ id)) rfl rfl rfl rfl ?_ menos ?_
  · intro row member kept
    show guardarArquivo _ _ _ _ = _
    rw [guardarArquivo, if_neg (outro row member (of_decide_eq_true kept))]
  · intro row member presente _
    apply decide_eq_true
    intro same
    have one : row = alvo := inj_on_of_nodup_map ok.ids member inLinhas (same.trans named.symm)
    have presente : (guardarArquivo s.nuvem.arquivos alvo.filePath none row.filePath).isSome =
      true := presente
    rw [one, guardarArquivo, if_pos rfl] at presente
    cases presente

end Acervo

section Expurgo

section

variable (ok : Integro placeOf s) (storage : Text)

include ok storage

variable (expurgo : Expurgo)

theorem removerSemLastro_integro :
    Integro placeOf { comLinhas s (s.nuvem.linhas.filter fun row => !semLastro storage row) with
      expurgo := expurgo } := by
  refine filtrar_integro ok (fun row => !semLastro storage row) rfl rfl rfl rfl (fun _ _ _ => rfl)
    (fun _ _ presente => presente) ?_
  intro row _ _ podavel
  unfold semLastro
  rw [podavel.2.2.1]
  simp

theorem limparNuvem_integro
    (separado : ∀ row ∈ s.nuvem.linhas, row.cloudStorageId = some storage →
      (s.nuvem.arquivos row.filePath).isSome = true ∧ row.id ∉
      (aRemover s.nuvem.ciclo).map Pendente.id) :
    Integro placeOf { comLinhas s (s.nuvem.linhas.map (semNuvem storage)) with
      expurgo := expurgo } := by
  refine mapear_integro ok (semNuvem storage) rfl rfl rfl rfl ?_ ?_ ?_ ?_
  · intro row
    unfold semNuvem
    split
    all_goals rfl
  · intro row livre
    unfold semNuvem
    split
    · rfl
    · exact livre
  · intro row member inPoda podavel
    unfold semNuvem
    split
    · rename_i dele
      exact absurd inPoda (separado row member dele).2
    · exact podavel
  · intro row member linha
    have outro : LinhaOk placeOf s (semNuvem storage row) := by
      unfold semNuvem
      split
      · rename_i dele
        refine ⟨linha.uuid, fun _ => (separado row member dele).1, nofun, nofun⟩
      · exact linha
    exact linhaOk_of outro rfl rfl rfl

theorem apagarStorage_integro
    (separado : ∀ row ∈ s.nuvem.linhas, row.cloudStorageId ≠ some storage) :
    Integro placeOf { comLinhas s (s.nuvem.linhas.map (semReferencia storage)) with
      storages := s.storages.filter (· ≠ storage)
      expurgo := expurgo } := by
  have mesma : ∀ row ∈ s.nuvem.linhas, semReferencia storage row = row := by
    intro row member
    unfold semReferencia
    rw [if_neg (separado row member)]
  refine mapear_integro ok (semReferencia storage) rfl rfl rfl rfl ?_ ?_ ?_ ?_
  · intro row
    unfold semReferencia
    split
    all_goals rfl
  · intro row livre
    unfold semReferencia
    split
    all_goals exact livre
  · intro row member _ podavel
    rw [mesma row member]
    exact podavel
  · intro row member linha
    rw [mesma row member]
    obtain ⟨uuid, soLocal, respaldo, chave⟩ := linha
    refine ⟨uuid, soLocal, ?_, chave⟩
    intro nomeada
    obtain ⟨existe, resto⟩ := respaldo nomeada
    refine ⟨?_, resto⟩
    intro id same
    apply mem_filter.mpr
    refine ⟨existe id same, decide_eq_true ?_⟩
    intro ele
    rw [ele] at same
    exact separado row member same

theorem cadastrar_integro : Integro placeOf { s with storages := storage :: s.storages } := by
  refine ⟨ok.ids, ok.caminhos, ok.recs, ?_, ?_⟩
  · intro row member
    obtain ⟨uuid, soLocal, respaldo, chave⟩ := ok.linha row member
    refine ⟨uuid, soLocal, ?_, chave⟩
    intro nomeada
    obtain ⟨existe, resto⟩ := respaldo nomeada
    exact ⟨fun id same => mem_cons_of_mem _ (existe id same), resto⟩
  · exact ok.ciclo.vem ⟨fun row member => ⟨row, member, rfl, id, fun _ => id⟩,
      fun _ _ _ presente => presente,
      fun _ _ presente => ⟨presente, fun row member caminho _ => ⟨row, member, caminho⟩⟩⟩ rfl rfl

end

theorem expurgo_integro (ok : Integro placeOf s) (expurgo : Expurgo) :
    Integro placeOf { s with expurgo := expurgo } := by
  refine ⟨ok.ids, ok.caminhos, ok.recs, ?_, ?_⟩
  · intro row member
    exact linhaOk_of (ok.linha row member) rfl rfl rfl
  · exact ok.ciclo.vem ⟨fun row member => ⟨row, member, rfl, id, fun _ => id⟩,
      fun _ _ _ presente => presente,
      fun _ _ presente => ⟨presente, fun row member caminho _ => ⟨row, member, caminho⟩⟩⟩ rfl rfl

end Expurgo

section Passos

variable [DecidableEq Place] {limites : Limites}

theorem passoDoCiclo_integro (ok : Integro placeOf s) (acao : Acao) (nuvem : Estado Place)
    (chave : chaveEstrangeira s acao = true) (separado : Separado placeOf s (.ciclo acao))
    (taken : passoDoCiclo limites placeOf s.nuvem acao = some nuvem) :
    Integro placeOf { s with nuvem := nuvem } := by
  cases acao with
  | iniciarCiclo destino politica contou =>
    simp only [passoDoCiclo] at taken
    split at taken
    · cases taken
      exact iniciarCiclo_integro limites ok destino politica contou
    · cases taken
  | puxar =>
    simp only [passoDoCiclo] at taken
    split at taken
    · rename_i destino rec fila emVoo ciclo
      split at taken
      · cases taken
        exact puxar_integro ok ciclo
      · cases taken
    · cases taken
  | medir i =>
    simp only [passoDoCiclo] at taken
    split at taken
    · rename_i destino fila emVoo ciclo
      split at taken
      · rename_i rec here
        split at taken
        · rename_i tamanho lido
          cases taken
          exact atualizarEnvio_integro ok ciclo here (.medido (tamanho + 1))
            (medir_envio ok ciclo here lido)
        · cases taken
          exact largarEnvio_integro ok ciclo i s.nuvem.inverificaveis
      · cases taken
    · cases taken
  | enviar i bytes =>
    simp only [passoDoCiclo] at taken
    split at taken
    · rename_i destino fila emVoo ciclo
      split at taken
      · rename_i rec tamanho here
        cases taken
        exact enviar_integro ok ciclo here bytes
      · cases taken
    · cases taken
  | conferir i verificavel informaTamanho =>
    simp only [passoDoCiclo] at taken
    split at taken
    · rename_i destino fila emVoo ciclo
      split at taken
      · rename_i rec tamanho here
        have okCiclo := ok.ciclo
        unfold CicloOk at okCiclo
        rw [ciclo] at okCiclo
        have medida : MedidaCerta s rec tamanho := okCiclo.2 _ (List.mem_of_getElem? here)
        split at taken
        · rename_i veredito
          cases taken
          have fiel : informaTamanho = true ∨ (s.nuvem.objetos (placeOf destino.id)
              (buildCloudKey rec)).all (· = tamanho) = true := by
            rcases separado with informa | igual
            · exact Or.inl informa
            · rw [objetoFiel, ciclo] at igual
              simp only [here] at igual
              exact Or.inr igual
          exact atualizarEnvio_integro ok ciclo here .confirmado
            ⟨tamanho, conferir_objeto veredito fiel, medida⟩
        · cases taken
          exact largarEnvio_integro ok ciclo i _
        · cases taken
          exact largarEnvio_integro ok ciclo i s.nuvem.inverificaveis
      · cases taken
    · cases taken
  | registrar i agora =>
    simp only [passoDoCiclo] at taken
    split at taken
    · rename_i destino fila emVoo ciclo
      split at taken
      · rename_i rec here
        cases taken
        rw [chaveEstrangeira, ciclo] at chave
        exact registrar_integro ok ciclo here agora (of_decide_eq_true chave)
      · cases taken
    · cases taken
  | falhar i =>
    simp only [passoDoCiclo] at taken
    split at taken
    · rename_i destino fila emVoo ciclo
      split at taken
      · cases taken
        exact largarEnvio_integro ok ciclo i s.nuvem.inverificaveis
      · cases taken
    · cases taken
  | iniciarPoda politica agora =>
    simp only [passoDoCiclo] at taken
    split at taken
    · cases taken
      exact iniciarPoda_integro ok _ politica agora
    · cases taken
  | removerLocal falha =>
    simp only [passoDoCiclo] at taken
    split at taken
    · rename_i rec candidatas ciclo
      split at taken
      · cases taken
        exact pularCandidata_integro ok ciclo
      · cases taken
        exact removerLocal_integro ok ciclo
    · cases taken
  | marcarRemovido agora =>
    simp only [passoDoCiclo] at taken
    split at taken
    · rename_i rec candidatas ciclo
      split at taken
      · cases taken
        exact marcarRemovido_integro ok ciclo agora
      · cases taken
        exact pararCiclo_integro ok
    · cases taken
  | encerrarCiclo =>
    simp only [passoDoCiclo] at taken
    split at taken
    · cases taken
      exact pararCiclo_integro ok
    · cases taken
  | _ => cases taken

theorem passo_integro : Preserves (passo limites placeOf) (Separado placeOf) (Integro placeOf) := by
  intro s acao t separado ok taken
  cases acao with
  | ciclo acao =>
    simp only [passo] at taken
    split at taken
    · rename_i chave
      obtain ⟨nuvem, ciclo, rfl⟩ := Option.map_eq_some_iff.mp taken
      exact passoDoCiclo_integro ok acao nuvem chave separado ciclo
    · cases taken
  | falharMarcacao =>
    simp only [passo] at taken
    split at taken
    · cases taken
      exact pararCiclo_integro ok
    · cases taken
  | gravar row bytes =>
    simp only [passo] at taken
    split at taken
    · rename_i novo
      obtain ⟨nuvem, grava, rfl⟩ := Option.map_eq_some_iff.mp taken
      simp only [passoDoAcervo] at grava
      split at grava
      · rename_i livre
        cases grava
        exact gravar_integro ok row bytes novo livre.1 livre.2.1 livre.2.2
      · cases grava
    · cases taken
  | excluir id =>
    obtain ⟨nuvem, exclui, rfl⟩ := Option.map_eq_some_iff.mp taken
    simp only [passoDoAcervo] at exclui
    split at exclui
    · rename_i alvo found
      cases exclui
      exact excluir_integro ok id alvo found
    · cases exclui
  | marcarSumida id agora =>
    cases taken
    exact updateRow_integro ok id (sumida agora) (fun _ => rfl) (fun _ => rfl) (fun _ => rfl)
      (Or.inl separado)
  | desmarcar id =>
    cases taken
    exact updateRow_integro ok id recuperada (fun _ => rfl) (fun _ => rfl) (fun _ => rfl)
      (Or.inr fun _ podavel => ⟨podavel.1, podavel.2.1, podavel.2.2.1, rfl⟩)
  | cadastrar storage =>
    cases taken
    exact cadastrar_integro ok storage
  | iniciarExpurgo storage =>
    simp only [passo] at taken
    split at taken
    · cases taken
      exact expurgo_integro ok _
    · cases taken
  | removerSemLastro =>
    simp only [passo] at taken
    split at taken
    · cases taken
      exact removerSemLastro_integro ok _ _
    · cases taken
  | limparNuvem =>
    simp only [passo] at taken
    split at taken
    · rename_i storage expurgo
      cases taken
      apply limparNuvem_integro ok storage
      intro row member dele
      apply separado row member
      rw [expurgo, dele]
      exact decide_eq_true rfl
    · cases taken
  | apagarStorage =>
    simp only [passo] at taken
    split at taken
    · rename_i storage expurgo
      cases taken
      apply apagarStorage_integro ok storage
      intro row member dele
      have livre := separado row member
      rw [expurgo, dele] at livre
      exact of_decide_eq_false livre rfl
    · cases taken
  | falharExpurgo =>
    simp only [passo] at taken
    split at taken
    · cases taken
    · cases taken
      exact expurgo_integro ok _

/-- A truthful database, before any cycle has started: a row without a key has its local file, and a
row with one has its object, of the same size. -/
structure Coerente (placeOf : Option Text → Place) (s : Sistema Place) : Prop where
  ids : (s.nuvem.linhas.map Recording.id).Nodup
  caminhos : (s.nuvem.linhas.map Recording.filePath).Nodup
  linha : ∀ row ∈ s.nuvem.linhas, LinhaOk placeOf s row
  parado : s.nuvem.ciclo = .parado

/-- The file that the prune unlinks is of a row that carries a confirmed upload of the same size, on a
storage that exists, and that is not marked missing. -/
def PodaConfirmada (placeOf : Option Text → Place) (s : Sistema Place) (rec : Pendente) : Prop :=
  ∀ bytes, s.nuvem.arquivos rec.filePath = some bytes →
    ∃ row ∈ s.nuvem.linhas, row.id = rec.id ∧ row.filePath = rec.filePath ∧
      row.cloudUploadedAt.isSome = true ∧ row.cloudMissingSince = none ∧
      StorageExiste s.storages row.cloudStorageId ∧
      ∃ chave, row.cloudKey = some chave ∧
        s.nuvem.objetos (placeOf row.cloudStorageId) chave = some bytes

omit [DecidableEq Place] in
theorem Coerente.integro (coerente : Coerente placeOf s) : Integro placeOf s := by
  refine ⟨coerente.ids, coerente.caminhos, ?_, coerente.linha, ?_⟩
  · rw [coerente.parado]
    exact nodup_nil
  · unfold CicloOk
    rw [coerente.parado]
    nofun

omit [DecidableEq Place] in
theorem LinhaOk.copia {row : Recording} (ok : LinhaOk placeOf s row) :
    TemCopia placeOf s.nuvem row := by
  cases chave : row.cloudKey with
  | none => exact Or.inl (ok.soLocal chave)
  | some key =>
    right
    obtain ⟨-, other, objeto, named, presente, -⟩ := ok.respaldo (by rw [chave]; rfl)
    refine ⟨other, named, ?_⟩
    rw [presente]
    rfl

omit [DecidableEq Place] in
theorem Integro.poda (ok : Integro placeOf s) {candidatas : List Pendente}
    (ciclo : s.nuvem.ciclo = .podando (rec :: candidatas)) : PodaConfirmada placeOf s rec := by
  intro bytes presente
  have okCiclo := ok.ciclo
  unfold CicloOk at okCiclo
  rw [ciclo] at okCiclo
  obtain ⟨podavel, existe⟩ := okCiclo rec mem_cons_self
  obtain ⟨row, member, caminho⟩ := existe (by rw [presente]; rfl)
  obtain ⟨same, nomeada, subiu, -, vista⟩ := podavel row member caminho
  obtain ⟨storage, chave, objeto, named, there, medida⟩ := (ok.linha row member).respaldo nomeada
  rw [caminho] at medida
  rw [← medida bytes presente] at there
  exact ⟨row, member, same, caminho, subiu, vista, storage, chave, named, there⟩

/-- In a run whose marks and purges do not cross the prune, the prune only unlinks files of confirmed
uploads, and every row keeps its local file or its object. -/
theorem prune_only_confirmed (coerente : Coerente placeOf s) (passos : List Passo)
    (separados : Allowed (passo limites placeOf) (Separado placeOf) s passos)
    (chegou : run (passo limites placeOf) s passos = some t) :
    (∀ row ∈ t.nuvem.linhas, TemCopia placeOf t.nuvem row) ∧
      ∀ rec candidatas, t.nuvem.ciclo = .podando (rec :: candidatas) →
        PodaConfirmada placeOf t rec := by
  have ok := run_invariant _ passo_integro s t passos separados coerente.integro chegou
  constructor
  · intro row member
    exact (ok.linha row member).copia
  · intro rec candidatas ciclo
    exact ok.poda ciclo

end Passos

end Integridade

section Corrida

instance (s : Sistema (Option Text)) : (acao : Passo) → Decidable (Separado id s acao)
  | .ciclo (.conferir _ _ _) => inferInstanceAs (Decidable (_ = true ∨ _ = true))
  | .marcarSumida _ _ => inferInstanceAs (Decidable (_ ∉ _))
  | .limparNuvem => inferInstanceAs (Decidable (∀ row ∈ s.nuvem.linhas, _ → _ = true ∧ _ ∉ _))
  | .apagarStorage => inferInstanceAs (Decidable (∀ row ∈ s.nuvem.linhas, _ = false))
  | .falharMarcacao | .gravar _ _ | .excluir _ | .desmarcar _ | .cadastrar _ | .iniciarExpurgo _
  | .removerSemLastro | .falharExpurgo => isTrue trivial
  | .ciclo (.iniciarCiclo _ _ _) | .ciclo .puxar | .ciclo (.medir _) | .ciclo (.enviar _ _)
  | .ciclo (.registrar _ _) | .ciclo (.falhar _) | .ciclo (.iniciarPoda _ _)
  | .ciclo (.removerLocal _) | .ciclo (.marcarRemovido _) | .ciclo .encerrarCiclo
  | .ciclo (.iniciarVarredura _) | .ciclo (.listarPagina _ _) | .ciclo .procurarDonos
  | .ciclo .contarDonos | .ciclo (.apagar _ _) | .ciclo .fimDaPagina | .ciclo .falharVarredura
  | .ciclo (.gravar _ _) | .ciclo (.excluir _) => isTrue trivial

def segmento (nome : Char) (storage : Option Text) : Recording where
  id := [nome]
  cameraId := ['c']
  triggerMode := ['m']
  startedAt := 60
  endedAt := some 120
  filePath := [nome, '.', 'x']
  sizeBytes := some 5
  cloudKey := storage.map fun _ => buildCloudKey ⟨[nome], ['c'], [nome, '.', 'x']⟩
  cloudUploadedAt := storage.map fun _ => 70
  cloudStorageId := storage
  localDeletedAt := none
  cloudMissingSince := none

/-- Three recordings with their local files: one in each of two storages, and one in neither. -/
def acervoLocal : Sistema (Option Text) where
  nuvem := {
    linhas := [segmento 'a' (some ['s']), segmento 'b' (some ['q']), segmento 'd' none]
    arquivos := fun caminho =>
      if caminho ∈ [['a', '.', 'x'], ['b', '.', 'x'], ['d', '.', 'x']] then some 5 else none
    objetos := fun place chave =>
      if (place = some ['s'] ∧ (segmento 'a' (some ['s'])).cloudKey = some chave) ∨
          (place = some ['q'] ∧ (segmento 'b' (some ['q'])).cloudKey = some chave) then some 5
      else none
    ciclo := .parado
    varredura := .parada
    inverificaveis := [] }
  storages := [['s'], ['q']]
  expurgo := .parado

theorem segmento_linhaOk (nome : Char) (storage : Option Text) (semBarra : nome ≠ '/')
    (arquivo : acervoLocal.nuvem.arquivos [nome, '.', 'x'] = some 5)
    (respaldo : ∀ id, storage = some id → id ∈ acervoLocal.storages ∧
      acervoLocal.nuvem.objetos storage (buildCloudKey ⟨[nome], ['c'], [nome, '.', 'x']⟩) =
      some 5) :
    LinhaOk id acervoLocal (segmento nome storage) := by
  have uuid : SemBarra ⟨[nome], ['c'], [nome, '.', 'x']⟩ := by
    constructor
    · simpa using Ne.symm semBarra
    · show '/' ∉ ['c']
      decide
  refine ⟨uuid, ?_, ?_, ?_⟩
  · intro _
    show (acervoLocal.nuvem.arquivos [nome, '.', 'x']).isSome = true
    rw [arquivo]
    rfl
  · intro nomeada
    cases storage with
    | none => simp [segmento] at nomeada
    | some place =>
      refine ⟨fun id same => ?_, _, 5, rfl, (respaldo place rfl).2, ?_⟩
      · cases same
        exact (respaldo place rfl).1
      · intro bytes presente
        have igual := arquivo.symm.trans presente
        exact (Option.some.inj igual).symm
  · intro chave nomeada rec limpo same
    cases storage with
    | none => simp [segmento] at nomeada
    | some place =>
      cases nomeada
      exact buildCloudKey_id rec ⟨[nome], ['c'], [nome, '.', 'x']⟩ limpo uuid same

theorem acervoLocal_coerente : Coerente id acervoLocal := by
  refine ⟨by decide, by decide, ?_, rfl⟩
  have tres : acervoLocal.nuvem.linhas =
      [segmento 'a' (some ['s']), segmento 'b' (some ['q']), segmento 'd' none] := rfl
  intro row member
  rw [tres] at member
  simp only [mem_cons, not_mem_nil, or_false] at member
  rcases member with rfl | rfl | rfl
  · refine segmento_linhaOk 'a' (some ['s']) (by decide) (by decide) ?_
    intro id same
    cases same
    exact ⟨by decide, by decide +kernel⟩
  · refine segmento_linhaOk 'b' (some ['q']) (by decide) (by decide) ?_
    intro id same
    cases same
    exact ⟨by decide, by decide +kernel⟩
  · exact segmento_linhaOk 'd' none (by decide) (by decide) (by simp)

def direta : Storage := ⟨some ['s'], true, 0, 6⟩

def soMovimento : StoragePolicy := ⟨true, [['m']], false⟩

def limitesUsuais : Limites := ⟨25, 200, 5000⟩

/-- The purge of `q` between the selection of the prune and its unlinks. -/
def expurgoNaPoda : List Passo :=
  [.ciclo (.iniciarCiclo direta soMovimento false), .ciclo .puxar, .ciclo (.falhar 0),
   .ciclo (.iniciarPoda soMovimento 140), .iniciarExpurgo ['q'], .removerSemLastro, .limparNuvem,
   .apagarStorage, .ciclo (.removerLocal false), .ciclo (.marcarRemovido 150)]

def vaiRemoverSemNuvem (s : Sistema (Option Text)) : Bool :=
  match s.nuvem.ciclo with
  | .podando (rec :: _) => (s.nuvem.arquivos rec.filePath).isSome &&
      s.nuvem.linhas.all fun row => decide (row.filePath = rec.filePath → row.cloudKey = none)
  | _ => false

theorem expurgoNaPoda_loses_recording : Coerente id acervoLocal ∧
    (∃ s rec candidatas, run (passo limitesUsuais id) acervoLocal expurgoNaPoda = some s ∧
      s.nuvem.ciclo = .podando (rec :: candidatas) ∧ ¬ PodaConfirmada id s rec) ∧
    ∃ t row, run (passo limitesUsuais id) acervoLocal
        (expurgoNaPoda ++ [.ciclo (.removerLocal false), .ciclo (.marcarRemovido 150)]) = some t ∧
      row ∈ t.nuvem.linhas ∧ ¬ TemCopia id t.nuvem row := by
  have chega : (run (passo limitesUsuais id) acervoLocal expurgoNaPoda).any
      vaiRemoverSemNuvem = true := by
    decide +kernel
  have perde : ((run (passo limitesUsuais id) acervoLocal
      (expurgoNaPoda ++ [.ciclo (.removerLocal false), .ciclo (.marcarRemovido 150)])).any fun t =>
        t.nuvem.linhas.any fun row => decide (¬ TemCopia id t.nuvem row)) = true := by
    decide +kernel
  simp only [Option.any_eq_true, any_eq_true, decide_eq_true_eq] at perde chega
  obtain ⟨t, chegou, row, member, semCopia⟩ := perde
  obtain ⟨s, antes, vai⟩ := chega
  refine ⟨acervoLocal_coerente, ?_, t, row, chegou, member, semCopia⟩
  unfold vaiRemoverSemNuvem at vai
  split at vai
  · rename_i rec candidatas ciclo
    rw [Bool.and_eq_true, all_eq_true] at vai
    obtain ⟨presente, limpas⟩ := vai
    refine ⟨s, rec, candidatas, antes, ciclo, ?_⟩
    intro confirmada
    obtain ⟨bytes, arquivo⟩ := Option.isSome_iff_exists.mp presente
    obtain ⟨row, inLinhas, -, caminho, -, -, -, chave, nomeada, -⟩ := confirmada bytes arquivo
    have limpa := of_decide_eq_true (limpas row inLinhas) caminho
    rw [limpa] at nomeada
    cases nomeada
  · cases vai

/-- The purge before the selection, while an upload is on its way to the other storage. -/
def expurgoAntesDaPoda : List Passo :=
  [.ciclo (.iniciarCiclo direta soMovimento false), .ciclo .puxar, .ciclo (.medir 0),
   .ciclo (.enviar 0 5), .iniciarExpurgo ['q'], .removerSemLastro, .limparNuvem,
   .ciclo (.conferir 0 true true), .apagarStorage, .ciclo (.registrar 0 130),
   .ciclo (.iniciarPoda soMovimento 140), .marcarSumida ['b'] 145, .ciclo (.removerLocal false),
   .ciclo (.marcarRemovido 150)]

theorem expurgoAntesDaPoda_keeps_copies : ∃ t rec candidatas,
    run (passo limitesUsuais id) acervoLocal expurgoAntesDaPoda = some t ∧
      t.nuvem.ciclo = .podando (rec :: candidatas) ∧ PodaConfirmada id t rec ∧
      ∀ row ∈ t.nuvem.linhas, TemCopia id t.nuvem row := by
  have termina : (run (passo limitesUsuais id) acervoLocal expurgoAntesDaPoda).any (fun t =>
      match t.nuvem.ciclo with
      | .podando (_ :: _) => true
      | _ => false) = true := by
    decide +kernel
  rw [Option.any_eq_true] at termina
  obtain ⟨t, chegou, podando⟩ := termina
  have separados := allowedBy_allowed (passo limitesUsuais id) (Separado id) acervoLocal
    expurgoAntesDaPoda (by decide +kernel)
  obtain ⟨copias, poda⟩ := prune_only_confirmed acervoLocal_coerente expurgoAntesDaPoda separados
    chegou
  split at podando
  · rename_i rec candidatas ciclo
    exact ⟨t, rec, candidatas, chegou, ciclo, poda rec candidatas ciclo, copias⟩
  · cases podando

end Corrida

end DracVms.StoragePurge
