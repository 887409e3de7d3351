import DracVms.CloudStorage.OffloadSweep
import DracVms.Library.Runs

namespace DracVms.OffloadSweep

open List Json Database Runs

section Seguranca

variable {Place : Type} (placeOf : Option Text → Place)

/-- The object of a row is in the bucket that the row names. -/
def TemObjeto (s : Estado Place) (row : Recording) : Prop :=
  ∃ chave, row.cloudKey = some chave ∧ (s.objetos (placeOf row.cloudStorageId) chave).isSome = true

def TemCopia (s : Estado Place) (row : Recording) : Prop :=
  (s.arquivos row.filePath).isSome = true ∨ TemObjeto placeOf s row

/-- The rows that some prune may take: confirmed in the cloud, and still with a local file. -/
def Podavel (row : Recording) : Prop :=
  row.cloudKey.isSome = true ∧ row.cloudUploadedAt.isSome = true ∧ row.localDeletedAt = none ∧
    row.cloudMissingSince = none

/-- The uploads that HEAD has confirmed and the database does not show yet. -/
def Ciclo.confirmados : Ciclo → List (Option Text × Text)
  | .enviando destino _ emVoo =>
    (emVoo.filter fun e => e.fase = .confirmado).map fun e => (destino.id, buildCloudKey e.gravacao)
  | _ => []

/-- The keys that the sweep has looked up without finding an owner. -/
def Varredura.condenadas : Varredura → List (Option Text × Text)
  | .contando p chaves => chaves.map fun chave => (p.storage, chave)
  | .apagando p chaves protegidas =>
    (chaves.filter fun chave => chave ∉ protegidas).map fun chave => (p.storage, chave)
  | _ => []

/-- A row or a confirmed upload counts on the object. -/
def Referido (s : Estado Place) (place : Place) (chave : Text) : Prop :=
  (∃ row ∈ s.linhas, row.cloudKey = some chave ∧ placeOf row.cloudStorageId = place) ∨
    ∃ c ∈ s.ciclo.confirmados, placeOf c.1 = place ∧ c.2 = chave

structure Integro (s : Estado Place) : Prop where
  distintos : (s.linhas.map Recording.filePath).Nodup
  copia : ∀ row ∈ s.linhas, TemCopia placeOf s row
  apoio : ∀ row ∈ s.linhas, Podavel row → TemObjeto placeOf s row
  confirmados : ∀ c ∈ s.ciclo.confirmados, (s.objetos (placeOf c.1) c.2).isSome = true
  condenadas : ∀ c ∈ s.varredura.condenadas, ¬ Referido placeOf s (placeOf c.1) c.2
  poda : ∀ row ∈ s.linhas, row.filePath ∈ s.ciclo.caminhos → TemObjeto placeOf s row

/-- The keys that the next look-up asks for. -/
def Varredura.consultadas : Varredura → List (Option Text × Text)
  | .listada p chaves => chaves.map fun chave => (p.storage, chave)
  | _ => []

/-- The object that the next HEAD asks for. -/
def Ciclo.conferida : Ciclo → Nat → List (Option Text × Text)
  | .enviando destino _ emVoo, i =>
    emVoo[i]?.toList.map fun e => (destino.id, buildCloudKey e.gravacao)
  | _, _ => []

/-- When the two loops may cross: a look-up sees no key whose upload is confirmed but not yet
recorded, or whose row names another storage of the same place, and no HEAD confirms a key that the
sweep is about to delete. -/
def Oportuna (s : Estado Place) : Acao → Prop
  | .procurarDonos => ∀ c ∈ s.varredura.consultadas,
      (∀ d ∈ s.ciclo.confirmados, placeOf d.1 = placeOf c.1 → d.2 ≠ c.2) ∧
      ∀ row ∈ s.linhas, row.cloudKey = some c.2 → placeOf row.cloudStorageId = placeOf c.1 →
        row.cloudStorageId = c.1
  | .conferir i _ _ => ∀ d ∈ s.ciclo.conferida i, ∀ c ∈ s.varredura.condenadas,
      placeOf c.1 = placeOf d.1 → c.2 ≠ d.2
  | _ => True

variable {placeOf} {s t : Estado Place}

theorem TemObjeto.mono {row : Recording} (tem : TemObjeto placeOf s row)
    (objetos : ∀ place chave, (s.objetos place chave).isSome = true →
      (t.objetos place chave).isSome = true) :
    TemObjeto placeOf t row := by
  obtain ⟨chave, nomeada, presente⟩ := tem
  exact ⟨chave, nomeada, objetos _ _ presente⟩

/-- A step that only adds objects and forgets work in progress keeps everything in order. -/
theorem Integro.mono (ok : Integro placeOf s) (linhas : t.linhas = s.linhas)
    (arquivos : t.arquivos = s.arquivos)
    (objetos : ∀ place chave, (s.objetos place chave).isSome = true →
      (t.objetos place chave).isSome = true)
    (confirmados : ∀ c ∈ t.ciclo.confirmados, c ∈ s.ciclo.confirmados)
    (condenadas : ∀ c ∈ t.varredura.condenadas, c ∈ s.varredura.condenadas)
    (caminhos : ∀ c ∈ t.ciclo.caminhos, c ∈ s.ciclo.caminhos) : Integro placeOf t := by
  refine ⟨?_, ?_, ?_, ?_, ?_, ?_⟩
  · rw [linhas]
    exact ok.distintos
  · intro row member
    rw [linhas] at member
    rcases ok.copia row member with arquivo | objeto
    · left
      rw [arquivos]
      exact arquivo
    · exact Or.inr (objeto.mono objetos)
  · intro row member podavel
    rw [linhas] at member
    exact (ok.apoio row member podavel).mono objetos
  · intro c member
    exact objetos _ _ (ok.confirmados c (confirmados c member))
  · rintro c member (⟨row, inLinhas, nomeada, lugar⟩ | ⟨d, confirmado, lugar, chave⟩)
    · rw [linhas] at inLinhas
      exact ok.condenadas c (condenadas c member) (Or.inl ⟨row, inLinhas, nomeada, lugar⟩)
    · exact ok.condenadas c (condenadas c member)
        (Or.inr ⟨d, confirmados d confirmado, lugar, chave⟩)
  · intro row member caminho
    rw [linhas] at member
    exact (ok.poda row member (caminhos _ caminho)).mono objetos

variable {fila : List Pendente} {emVoo : List Envio}

variable {destino : Storage} {c : Option Text × Text}

theorem mem_confirmados : c ∈ (Ciclo.enviando destino fila emVoo).confirmados ↔
      ∃ e ∈ emVoo, e.fase = .confirmado ∧ c = (destino.id, buildCloudKey e.gravacao) := by
  simp only [Ciclo.confirmados, mem_map, mem_filter, decide_eq_true_eq, and_assoc, eq_comm (a := c)]

theorem confirmados_set {i : Nat} {e : Envio}
    (member : c ∈ (Ciclo.enviando destino fila (emVoo.set i e)).confirmados) :
    c ∈ (Ciclo.enviando destino fila emVoo).confirmados ∨
      (e.fase = .confirmado ∧ c = (destino.id, buildCloudKey e.gravacao)) := by
  obtain ⟨f, inSet, fase, rfl⟩ := mem_confirmados.mp member
  rcases mem_or_eq_of_mem_set inSet with before | rfl
  · exact Or.inl (mem_confirmados.mpr ⟨f, before, fase, rfl⟩)
  · exact Or.inr ⟨fase, rfl⟩

theorem confirmados_eraseIdx {i : Nat}
    (member : c ∈ (Ciclo.enviando destino fila (emVoo.eraseIdx i)).confirmados) :
    c ∈ (Ciclo.enviando destino fila emVoo).confirmados := by
  obtain ⟨f, kept, fase, rfl⟩ := mem_confirmados.mp member
  exact mem_confirmados.mpr ⟨f, mem_of_mem_eraseIdx kept, fase, rfl⟩

section

variable (ok : Integro placeOf s) (ciclo : s.ciclo = .enviando destino fila emVoo) (i : Nat)

include ok ciclo

/-- Dropping an upload, whatever it had reached. -/
theorem largarEnvio_integro (inverificaveis : List Text) :
    Integro placeOf { largarEnvio s destino fila emVoo i with inverificaveis := inverificaveis } := by
  refine ok.mono rfl rfl (fun _ _ presente => presente) ?_ (fun _ member => member) nofun
  intro c member
  rw [ciclo]
  exact confirmados_eraseIdx member

/-- An upload that moves on to a phase before its confirmation. -/
theorem atualizarEnvio_integro (e : Envio) (fase : e.fase ≠ .confirmado) :
    Integro placeOf (atualizarEnvio s destino fila emVoo i e) := by
  refine ok.mono rfl rfl (fun _ _ presente => presente) ?_ (fun _ member => member) nofun
  intro c member
  rw [ciclo]
  rcases confirmados_set member with before | ⟨confirmado, -⟩
  · exact before
  · exact absurd confirmado fase

/-- An upload that HEAD confirms: its object is there, and the sweep is not after it. -/
theorem confirmar_integro (rec : Pendente)
    (presente : (s.objetos (placeOf destino.id) (buildCloudKey rec)).isSome = true)
    (livre : ∀ c ∈ s.varredura.condenadas,
      placeOf c.1 = placeOf destino.id → c.2 ≠ buildCloudKey rec) :
    Integro placeOf (atualizarEnvio s destino fila emVoo i ⟨rec, .confirmado⟩) := by
  have novos : ∀ c ∈ (atualizarEnvio s destino fila emVoo i ⟨rec, .confirmado⟩).ciclo.confirmados,
      c ∈ s.ciclo.confirmados ∨ c = (destino.id, buildCloudKey rec) := by
    intro c member
    rw [ciclo]
    rcases confirmados_set member with before | ⟨-, novo⟩
    · exact Or.inl before
    · exact Or.inr novo
  refine ⟨ok.distintos, ok.copia, ok.apoio, ?_, ?_, nofun⟩
  · intro c member
    rcases novos c member with before | rfl
    · exact ok.confirmados c before
    · exact presente
  · rintro c member (linha | ⟨d, confirmado, lugar, chave⟩)
    · exact ok.condenadas c member (Or.inl linha)
    · rcases novos d confirmado with before | rfl
      · exact ok.condenadas c member (Or.inr ⟨d, before, lugar, chave⟩)
      · exact livre c member lugar.symm chave.symm

end

theorem headObject_confirma {place : Place} {chave : Text} {verificavel informaTamanho : Bool}
    {tamanho : Nat}
    (veredito : avaliarConfirmacao (headObject s place chave verificavel informaTamanho) tamanho
      = .ok) :
    (s.objetos place chave).isSome = true := by
  unfold avaliarConfirmacao at veredito
  split at veredito
  · cases veredito
  · split at veredito
    · cases veredito
    · rename_i existe
      rwa [Bool.not_eq_true, Bool.not_eq_false'] at existe

section

variable (ok : Integro placeOf s)

include ok

theorem updateRow_integro (id : Text) (mudar : Recording → Recording)
    (caminho : ∀ row, (mudar row).filePath = row.filePath)
    (conserva : ∀ row, TemObjeto placeOf s row → TemObjeto placeOf s (mudar row))
    (apoio : ∀ row, row ∈ s.linhas → Podavel (mudar row) → TemObjeto placeOf s (mudar row))
    (referidos : ∀ row ∈ s.linhas, row.id = id → ∀ c ∈ s.varredura.condenadas,
      (mudar row).cloudKey = some c.2 → placeOf (mudar row).cloudStorageId = placeOf c.1 →
      Referido placeOf s (placeOf c.1) c.2) :
    Integro placeOf { s with linhas := updateRow s.linhas id mudar } := by
  refine ⟨?_, ?_, ?_, ok.confirmados, ?_, ?_⟩
  · rw [updateRow_paths s.linhas id mudar caminho]
    exact ok.distintos
  · intro row member
    rcases mem_updateRow s.linhas id mudar row member with kept | ⟨old, inLinhas, -, rfl⟩
    · exact ok.copia row kept
    · rcases ok.copia old inLinhas with arquivo | objeto
      · left
        rw [caminho]
        exact arquivo
      · exact Or.inr (conserva old objeto)
  · intro row member podavel
    rcases mem_updateRow s.linhas id mudar row member with kept | ⟨old, inLinhas, -, rfl⟩
    · exact ok.apoio row kept podavel
    · exact apoio old inLinhas podavel
  · rintro c member (⟨row, inLinhas, nomeada, lugar⟩ | confirmado)
    · rcases mem_updateRow s.linhas id mudar row inLinhas with kept | ⟨old, inOld, same, rfl⟩
      · exact ok.condenadas c member (Or.inl ⟨row, kept, nomeada, lugar⟩)
      · exact ok.condenadas c member (referidos old inOld same c member nomeada lugar)
    · exact ok.condenadas c member (Or.inr confirmado)
  · intro row member
    rcases mem_updateRow s.linhas id mudar row member with kept | ⟨old, inLinhas, -, rfl⟩
    · exact ok.poda row kept
    · intro inPoda
      rw [caminho] at inPoda
      exact conserva old (ok.poda old inLinhas inPoda)

/-- Recording a confirmed upload in its row. -/
theorem registrar_integro (ciclo : s.ciclo = .enviando destino fila emVoo) (i : Nat)
    (rec : Pendente) (agora : Instant) (pronto : emVoo[i]? = some ⟨rec, .confirmado⟩) :
    Integro placeOf { largarEnvio s destino fila emVoo i with
      linhas := updateRow s.linhas rec.id fun row =>
        { row with
          cloudKey := some (buildCloudKey rec)
          cloudUploadedAt := some agora
          cloudStorageId := destino.id } } := by
  have confirmado : (destino.id, buildCloudKey rec) ∈ s.ciclo.confirmados := by
    rw [ciclo]
    exact mem_confirmados.mpr ⟨_, List.mem_of_getElem? pronto, rfl, rfl⟩
  have presente := ok.confirmados _ confirmado
  have gravado := updateRow_integro ok rec.id
    (fun row => { row with
      cloudKey := some (buildCloudKey rec)
      cloudUploadedAt := some agora
      cloudStorageId := destino.id })
    (fun _ => rfl) (fun _ _ => ⟨_, rfl, presente⟩) (fun _ _ _ => ⟨_, rfl, presente⟩) (by
      intro row _ _ c _ nomeada lugar
      exact Or.inr ⟨_, confirmado, lugar, Option.some.inj nomeada⟩)
  refine gravado.mono rfl rfl (fun _ _ presente => presente) ?_ (fun _ member => member) nofun
  intro c member
  rw [ciclo]
  exact confirmados_eraseIdx member

theorem marcarRemovido_integro {rec : Pendente} {candidatas : List Pendente}
    (ciclo : s.ciclo = .marcando rec candidatas) (agora : Instant) : Integro placeOf { s with
      ciclo := .podando candidatas
      linhas := updateRow s.linhas rec.id fun row => { row with localDeletedAt := some agora } } := by
  have marcado := updateRow_integro ok rec.id
    (fun row => { row with localDeletedAt := some agora }) (fun _ => rfl) (fun _ tem => tem)
    (fun row _ podavel => nomatch podavel.2.2.1) (by
      intro row inLinhas _ c _ nomeada lugar
      exact Or.inl ⟨row, inLinhas, nomeada, lugar⟩)
  refine marcado.mono rfl rfl (fun _ _ presente => presente) nofun (fun _ member => member) ?_
  intro c member
  rw [ciclo]
  exact member

/-- What a prune selects has its object, so the local file can go. -/
theorem iniciarPoda_integro (destino : Storage) (politica : StoragePolicy) (agora : Instant) :
    Integro placeOf { s with ciclo := .podando (candidatasDaPoda s destino politica agora) } := by
  refine ⟨ok.distintos, ok.copia, ok.apoio, nofun, ?_, ?_⟩
  · rintro c member (linha | ⟨d, confirmado, -⟩)
    · exact ok.condenadas c member (Or.inl linha)
    · cases confirmado
  · intro row member caminho
    obtain ⟨candidata, selecionada, same⟩ := mem_map.mp caminho
    unfold candidatasDaPoda at selecionada
    split at selecionada
    · cases selecionada
    · obtain ⟨other, taken, rfl⟩ := mem_map.mp selecionada
      have filtered := (mem_byStart _ _).mp (mem_of_mem_take taken)
      obtain ⟨inLinhas, candidata⟩ := mem_filter.mp filtered
      have one : other = row := inj_on_of_nodup_map ok.distintos inLinhas member same
      subst one
      apply ok.apoio other inLinhas
      simp only [candidataDaPoda, Bool.and_eq_true, Option.isNone_iff_eq_none] at candidata
      obtain ⟨⟨⟨nomeada, antiga⟩, noDisco⟩, vista⟩ := candidata
      refine ⟨nomeada, ?_, noDisco, vista⟩
      cases uploaded : other.cloudUploadedAt with
      | none =>
        rw [uploaded] at antiga
        cases antiga
      | some t => rfl

/-- The prune unlinks the file of a row that has its object. -/
theorem removerLocal_integro {rec : Pendente} {candidatas : List Pendente}
    (ciclo : s.ciclo = .podando (rec :: candidatas)) : Integro placeOf { s with
      ciclo := .marcando rec candidatas
      arquivos := guardarArquivo s.arquivos rec.filePath none } := by
  have caminhos : s.ciclo.caminhos = rec.filePath :: candidatas.map Pendente.filePath := by
    rw [ciclo]
    rfl
  refine ⟨ok.distintos, ?_, ok.apoio, nofun, ?_, ?_⟩
  · intro row member
    by_cases same : row.filePath = rec.filePath
    · right
      apply ok.poda row member
      rw [caminhos, same]
      exact mem_cons_self
    · rcases ok.copia row member with arquivo | objeto
      · left
        show (guardarArquivo s.arquivos rec.filePath none row.filePath).isSome = true
        rw [guardarArquivo, if_neg same]
        exact arquivo
      · exact Or.inr objeto
  · rintro c member (linha | ⟨d, confirmado, -⟩)
    · exact ok.condenadas c member (Or.inl linha)
    · cases confirmado
  · intro row member inPoda
    apply ok.poda row member
    rw [caminhos]
    exact mem_cons_of_mem _ inPoda

end

theorem mem_comDono {linhas : List Recording} {storage : Option Text} {chaves : List Text}
    {row : Recording} {chave : Text} (member : row ∈ linhas) (dono : row.cloudStorageId = storage)
    (nomeada : row.cloudKey = some chave) (listada : chave ∈ chaves) :
    chave ∈ comDono linhas storage chaves := by
  refine mem_filterMap.mpr ⟨row, mem_filter.mpr ⟨member, ?_⟩, nomeada⟩
  rw [nomeada, Option.any_some]
  exact decide_eq_true ⟨dono, decide_eq_true listada⟩

/-- A look-up at a good moment condemns no key that a row or a confirmed upload counts on. -/
theorem procurarDonos_livre {p : Progresso} {chaves : List Text}
    (varredura : s.varredura = .listada p chaves) (oportuna : Oportuna placeOf s .procurarDonos)
    (chave : Text) (listada : chave ∈ chaves) (semDono : chave ∉ comDono s.linhas p.storage chaves) :
    ¬ Referido placeOf s (placeOf p.storage) chave := by
  have consultada : (p.storage, chave) ∈ s.varredura.consultadas := by
    rw [varredura]
    exact mem_map_of_mem listada
  obtain ⟨envios, linhas⟩ := oportuna _ consultada
  rintro (⟨row, member, nomeada, lugar⟩ | ⟨c, confirmado, lugar, same⟩)
  · exact semDono (mem_comDono member (linhas row member nomeada lugar) nomeada listada)
  · exact envios c confirmado lugar same

theorem gravar_integro (ok : Integro placeOf s) (row : Recording) (bytes : Nat)
    (semChave : row.cloudKey = none) (novo : row.filePath ∉ s.linhas.map Recording.filePath)
    (livre : row.filePath ∉ s.ciclo.caminhos) : Integro placeOf { s with
      linhas := s.linhas ++ [row]
      arquivos := guardarArquivo s.arquivos row.filePath (some bytes) } := by
  have separado : ∀ other ∈ s.linhas, other.filePath ≠ row.filePath := by
    intro other member same
    exact novo (same ▸ mem_map_of_mem member)
  refine ⟨?_, ?_, ?_, ok.confirmados, ?_, ?_⟩
  · rw [map_append, map_singleton]
    exact nodup_append.mpr ⟨ok.distintos, nodup_singleton _, by
      intro a inOld b inNew same
      rw [mem_singleton] at inNew
      subst inNew
      exact novo (same ▸ inOld)⟩
  · intro other member
    rcases mem_append.mp member with old | new
    · rcases ok.copia other old with arquivo | objeto
      · left
        show (guardarArquivo s.arquivos row.filePath (some bytes) other.filePath).isSome = true
        rw [guardarArquivo, if_neg (separado other old)]
        exact arquivo
      · exact Or.inr objeto
    · rw [mem_singleton.mp new]
      left
      show (guardarArquivo s.arquivos row.filePath (some bytes) row.filePath).isSome = true
      rw [guardarArquivo, if_pos rfl]
      rfl
  · intro other member podavel
    rcases mem_append.mp member with old | new
    · exact ok.apoio other old podavel
    · rw [mem_singleton.mp new] at podavel
      have nomeada := podavel.1
      rw [semChave] at nomeada
      cases nomeada
  · rintro c member (⟨other, inLinhas, nomeada, lugar⟩ | confirmado)
    · rcases mem_append.mp inLinhas with old | new
      · exact ok.condenadas c member (Or.inl ⟨other, old, nomeada, lugar⟩)
      · rw [mem_singleton.mp new, semChave] at nomeada
        cases nomeada
    · exact ok.condenadas c member (Or.inr confirmado)
  · intro other member caminho
    rcases mem_append.mp member with old | new
    · exact ok.poda other old caminho
    · rw [mem_singleton.mp new] at caminho
      exact absurd caminho livre

theorem excluir_integro (ok : Integro placeOf s) (id : Text) (alvo : Recording)
    (achado : s.linhas.find? (fun row => row.id = id) = some alvo) : Integro placeOf { s with
      linhas := s.linhas.filter fun row => row.id ≠ id
      arquivos := guardarArquivo s.arquivos alvo.filePath none } := by
  have inLinhas := List.mem_of_find?_eq_some achado
  have nome : alvo.id = id := by
    have found := List.find?_some achado
    exact of_decide_eq_true found
  have kept : ∀ row ∈ s.linhas.filter (fun row => row.id ≠ id),
      row ∈ s.linhas ∧ row.filePath ≠ alvo.filePath := by
    intro row member
    obtain ⟨inRows, other⟩ := mem_filter.mp member
    refine ⟨inRows, ?_⟩
    intro same
    have one := inj_on_of_nodup_map ok.distintos inRows inLinhas same
    rw [one] at other
    exact of_decide_eq_true other nome
  refine ⟨?_, ?_, ?_, ok.confirmados, ?_, ?_⟩
  · exact (filter_sublist.map _).nodup ok.distintos
  · intro row member
    obtain ⟨inRows, other⟩ := kept row member
    rcases ok.copia row inRows with arquivo | objeto
    · left
      show (guardarArquivo s.arquivos alvo.filePath none row.filePath).isSome = true
      rw [guardarArquivo, if_neg other]
      exact arquivo
    · exact Or.inr objeto
  · intro row member
    exact ok.apoio row (kept row member).1
  · rintro c member (⟨row, inRows, nomeada, lugar⟩ | confirmado)
    · exact ok.condenadas c member (Or.inl ⟨row, (kept row inRows).1, nomeada, lugar⟩)
    · exact ok.condenadas c member (Or.inr confirmado)
  · intro row member
    exact ok.poda row (kept row member).1

/-- A sweep that moves to where it condemns nothing new. -/
theorem varrer_integro (ok : Integro placeOf s) (varredura : Varredura)
    (condenadas : ∀ c ∈ varredura.condenadas, c ∈ s.varredura.condenadas) :
    Integro placeOf { s with varredura := varredura } :=
  ok.mono rfl rfl (fun _ _ presente => presente) (fun _ member => member) condenadas
    (fun _ member => member)

theorem passoDoAcervo_integro (acao : Acao) (ok : Integro placeOf s)
    (taken : passoDoAcervo s acao = some t) : Integro placeOf t := by
  cases acao with
  | gravar row bytes =>
    simp only [passoDoAcervo] at taken
    split at taken
    · rename_i novo
      cases taken
      exact gravar_integro ok row bytes novo.1 novo.2.1 novo.2.2
    · cases taken
  | excluir id =>
    simp only [passoDoAcervo] at taken
    split at taken
    · rename_i alvo achado
      cases taken
      exact excluir_integro ok id alvo achado
    · cases taken
  | _ => cases taken

variable [DecidableEq Place]

theorem guardarObjeto_some (objetos : Place → Text → Option Nat) (place : Place) (chave : Text)
    (bytes : Nat) (p : Place) (k : Text) (presente : (objetos p k).isSome = true) :
    (guardarObjeto objetos place chave (some bytes) p k).isSome = true := by
  unfold guardarObjeto
  split
  · rfl
  · exact presente

variable {limites : Limites}

theorem procurarDonos_integro (ok : Integro placeOf s)
    (oportuna : Oportuna placeOf s .procurarDonos)
    (taken : passoDaVarredura limites placeOf s .procurarDonos = some t) : Integro placeOf t := by
  simp only [passoDaVarredura] at taken
  split at taken
  · rename_i p chaves varredura
    have livre := procurarDonos_livre varredura oportuna
    split at taken
    · cases taken
      refine ⟨ok.distintos, ok.copia, ok.apoio, ok.confirmados, ?_, ok.poda⟩
      intro c member
      obtain ⟨chave, kept, rfl⟩ := mem_map.mp member
      obtain ⟨listada, semDono⟩ := mem_filter.mp kept
      exact livre chave listada (of_decide_eq_true semDono)
    · rename_i nenhuma
      cases taken
      refine ⟨ok.distintos, ok.copia, ok.apoio, ok.confirmados, ?_, ok.poda⟩
      intro c member
      obtain ⟨chave, listada, rfl⟩ := mem_map.mp member
      apply livre chave listada
      have vazia : comDono s.linhas p.storage chaves = [] := by
        by_contra cheia
        exact nenhuma (Or.inl cheia)
      rw [vazia]
      exact not_mem_nil
  · cases taken

/-- Deleting a condemned key takes nothing that anyone counts on. -/
theorem apagar_integro (ok : Integro placeOf s) {p : Progresso} {chave : Text}
    {chaves protegidas : List Text}
    (varredura : s.varredura = .apagando p (chave :: chaves) protegidas)
    (semDono : chave ∉ protegidas) (q : Progresso) (storage : q.storage = p.storage) (apagou : Bool) :
    Integro placeOf { s with
      varredura := .apagando q chaves protegidas
      objetos :=
        if apagou then guardarObjeto s.objetos (placeOf p.storage) chave none else s.objetos } := by
  have condenada : (p.storage, chave) ∈ s.varredura.condenadas := by
    rw [varredura]
    refine mem_map.mpr ⟨chave, mem_filter.mpr ⟨mem_cons_self, ?_⟩, rfl⟩
    exact decide_eq_true semDono
  have livre := ok.condenadas _ condenada
  have sobra : ∀ place k, Referido placeOf s place k → (s.objetos place k).isSome = true →
      ((if apagou then guardarObjeto s.objetos (placeOf p.storage) chave none
        else s.objetos) place k).isSome = true := by
    intro place k referido presente
    by_cases apaga : apagou = true
    · rw [if_pos apaga, guardarObjeto]
      by_cases same : place = placeOf p.storage ∧ k = chave
      · rw [same.1, same.2] at referido
        exact absurd referido livre
      · rw [if_neg same]
        exact presente
    · rw [if_neg apaga]
      exact presente
  have objeto : ∀ row ∈ s.linhas, TemObjeto placeOf s row → TemObjeto placeOf
      { s with
        objetos :=
          if apagou then guardarObjeto s.objetos (placeOf p.storage) chave none else s.objetos }
      row := by
    rintro row member ⟨k, nomeada, presente⟩
    exact ⟨k, nomeada, sobra _ k (Or.inl ⟨row, member, nomeada, rfl⟩) presente⟩
  refine ⟨ok.distintos, ?_, ?_, ?_, ?_, ?_⟩
  · intro row member
    exact (ok.copia row member).imp_right (objeto row member)
  · intro row member podavel
    exact objeto row member (ok.apoio row member podavel)
  · intro c member
    exact sobra _ _ (Or.inr ⟨c, member, rfl, rfl⟩) (ok.confirmados c member)
  · intro c member
    obtain ⟨k, kept, rfl⟩ := mem_map.mp member
    have before : (p.storage, k) ∈ s.varredura.condenadas := by
      rw [varredura]
      obtain ⟨inPage, unowned⟩ := mem_filter.mp kept
      exact mem_map.mpr ⟨k, mem_filter.mpr ⟨mem_cons_of_mem _ inPage, unowned⟩, rfl⟩
    rw [storage]
    exact ok.condenadas _ before
  · intro row member caminho
    exact objeto row member (ok.poda row member caminho)

theorem passoDoCiclo_integro (acao : Acao) (ok : Integro placeOf s)
    (oportuna : Oportuna placeOf s acao) (taken : passoDoCiclo limites placeOf s acao = some t) :
    Integro placeOf t := by
  have objetos : ∀ place chave, (s.objetos place chave).isSome = true →
      (s.objetos place chave).isSome = true := fun _ _ presente => presente
  cases acao with
  | iniciarCiclo destino politica contou =>
    simp only [passoDoCiclo] at taken
    split at taken <;> cases taken
    exact ok.mono rfl rfl objetos nofun (fun _ member => member) nofun
  | puxar =>
    simp only [passoDoCiclo] at taken
    split at taken
    · rename_i destino rec fila emVoo ciclo
      split at taken <;> cases taken
      refine ok.mono rfl rfl objetos ?_ (fun _ member => member) nofun
      intro c member
      obtain ⟨e, inFlight, fase, rfl⟩ := mem_confirmados.mp member
      rw [ciclo]
      rcases mem_append.mp inFlight with before | new
      · exact mem_confirmados.mpr ⟨e, before, fase, rfl⟩
      · rw [mem_singleton.mp new] at fase
        cases fase
    · cases taken
  | medir i =>
    simp only [passoDoCiclo] at taken
    split at taken
    · rename_i destino fila emVoo ciclo
      split at taken
      · split at taken <;> cases taken
        · exact atualizarEnvio_integro ok ciclo i _ nofun
        · exact largarEnvio_integro ok ciclo i _
      · cases taken
    · cases taken
  | enviar i bytes =>
    simp only [passoDoCiclo] at taken
    split at taken
    · rename_i destino fila emVoo ciclo
      split at taken
      · rename_i rec tamanho pronto
        cases taken
        refine (atualizarEnvio_integro ok ciclo i ⟨rec, .enviado tamanho⟩ nofun).mono rfl rfl ?_
          (fun _ member => member) (fun _ member => member) (fun _ member => member)
        exact guardarObjeto_some s.objetos _ _ bytes
      · cases taken
    · cases taken
  | conferir i verificavel informaTamanho =>
    simp only [passoDoCiclo] at taken
    split at taken
    · rename_i destino fila emVoo ciclo
      split at taken
      · rename_i rec tamanho pronto
        split at taken <;> cases taken
        · rename_i veredito
          have conferida : (destino.id, buildCloudKey rec) ∈ s.ciclo.conferida i := by
            rw [ciclo, Ciclo.conferida, pronto]
            exact mem_singleton_self _
          exact confirmar_integro ok ciclo i rec (headObject_confirma veredito)
            (oportuna _ conferida)
        all_goals exact largarEnvio_integro ok ciclo i _
      · cases taken
    · cases taken
  | registrar i agora =>
    simp only [passoDoCiclo] at taken
    split at taken
    · rename_i destino fila emVoo ciclo
      split at taken
      · rename_i rec pronto
        cases taken
        exact registrar_integro ok ciclo i rec agora pronto
      · cases taken
    · cases taken
  | falhar i =>
    simp only [passoDoCiclo] at taken
    split at taken
    · rename_i destino fila emVoo ciclo
      split at taken <;> cases taken
      exact largarEnvio_integro ok ciclo i _
    · cases taken
  | iniciarPoda politica agora =>
    simp only [passoDoCiclo] at taken
    split at taken <;> cases taken
    exact iniciarPoda_integro ok _ politica agora
  | removerLocal falha =>
    simp only [passoDoCiclo] at taken
    split at taken
    · rename_i rec candidatas ciclo
      split at taken <;> cases taken
      · refine ok.mono rfl rfl objetos nofun (fun _ member => member) ?_
        intro c member
        rw [ciclo]
        exact mem_cons_of_mem _ member
      · exact removerLocal_integro ok ciclo
    · cases taken
  | marcarRemovido agora =>
    simp only [passoDoCiclo] at taken
    split at taken
    · rename_i rec candidatas ciclo
      split at taken <;> cases taken
      · exact marcarRemovido_integro ok ciclo agora
      · exact ok.mono rfl rfl objetos nofun (fun _ member => member) nofun
    · cases taken
  | encerrarCiclo =>
    simp only [passoDoCiclo] at taken
    split at taken <;> cases taken
    exact ok.mono rfl rfl objetos nofun (fun _ member => member) nofun
  | _ => cases taken

theorem condenadas_avancar (limites : Limites) (p : Progresso) :
    (avancar limites p).condenadas = [] := by
  unfold avancar
  split <;> rfl

theorem condenadas_receberPagina (limites : Limites) (p : Progresso) (chaves : List Text)
    (temMais : Bool) : (receberPagina limites p chaves temMais).condenadas = [] := by
  unfold receberPagina
  split
  · exact condenadas_avancar limites _
  · rfl

theorem passoDaVarredura_integro (acao : Acao) (ok : Integro placeOf s)
    (oportuna : Oportuna placeOf s acao) (taken : passoDaVarredura limites placeOf s acao = some t) :
    Integro placeOf t := by
  cases acao with
  | iniciarVarredura storages =>
    simp only [passoDaVarredura] at taken
    split at taken <;> cases taken
    exact varrer_integro ok _ nofun
  | listarPagina chaves temMais =>
    have vazia := fun p => condenadas_receberPagina limites p chaves temMais
    simp only [passoDaVarredura] at taken
    split at taken
    · split at taken <;> cases taken
      exact varrer_integro ok _ (by rw [vazia]; nofun)
    · cases taken
      exact varrer_integro ok _ (by rw [vazia]; nofun)
    · cases taken
  | procurarDonos => exact procurarDonos_integro ok oportuna taken
  | contarDonos =>
    simp only [passoDaVarredura] at taken
    split at taken
    · rename_i p chaves varredura
      split at taken <;> cases taken
      · exact varrer_integro ok _ nofun
      · refine varrer_integro ok _ ?_
        intro c member
        rw [varredura]
        obtain ⟨chave, kept, rfl⟩ := mem_map.mp member
        exact mem_map_of_mem (mem_of_mem_filter kept)
    · cases taken
  | apagar apagou respondeu =>
    simp only [passoDaVarredura] at taken
    split at taken
    · rename_i p chave chaves protegidas varredura
      split at taken
      · split at taken
        · rename_i protegida
          cases taken
          refine varrer_integro ok _ ?_
          intro c member
          rw [varredura]
          obtain ⟨k, kept, rfl⟩ := mem_map.mp member
          obtain ⟨inPage, unowned⟩ := mem_filter.mp kept
          exact mem_map.mpr ⟨k, mem_filter.mpr ⟨mem_cons_of_mem _ inPage, unowned⟩, rfl⟩
        · rename_i semDono
          cases taken
          exact apagar_integro ok varredura semDono
            { p with removidos := if respondeu then p.removidos + 1 else p.removidos } rfl apagou
      · cases taken
    · cases taken
  | fimDaPagina =>
    simp only [passoDaVarredura] at taken
    split at taken
    · split at taken <;> cases taken
      exact varrer_integro ok _ (by rw [condenadas_avancar]; nofun)
    · split at taken <;> cases taken
      exact varrer_integro ok _ nofun
    · cases taken
  | falharVarredura =>
    simp only [passoDaVarredura] at taken
    split at taken <;> cases taken <;> exact varrer_integro ok _ nofun
  | _ => cases taken

theorem passo_integro (limites : Limites) :
    Preserves (passo limites placeOf) (Oportuna placeOf) (Integro placeOf) := by
  intro s acao t oportuna ok taken
  unfold passo at taken
  split at taken
  · rename_i u ciclo
    cases taken
    exact passoDoCiclo_integro acao ok oportuna ciclo
  · split at taken
    · rename_i u varredura
      cases taken
      exact passoDaVarredura_integro acao ok oportuna varredura
    · exact passoDoAcervo_integro acao ok taken

/-- A truthful database, before any of the loops has started. -/
structure Coerente (placeOf : Option Text → Place) (s : Estado Place) : Prop where
  distintos : (s.linhas.map Recording.filePath).Nodup
  copia : ∀ row ∈ s.linhas, TemCopia placeOf s row
  apoio : ∀ row ∈ s.linhas, Podavel row → TemObjeto placeOf s row
  parado : s.ciclo = .parado
  parada : s.varredura = .parada

omit [DecidableEq Place] in
theorem Coerente.integro (coerente : Coerente placeOf s) : Integro placeOf s := by
  refine ⟨coerente.distintos, coerente.copia, coerente.apoio, ?_, ?_, ?_⟩
  · rw [coerente.parado]
    nofun
  · rw [coerente.parada]
    nofun
  · intro row _ caminho
    rw [coerente.parado] at caminho
    cases caminho

/-- In a run whose look-ups and confirmations do not cross, every row keeps a copy, and no object is
deleted between its confirmation and its registration. -/
theorem offload_keeps_copies (limites : Limites) (coerente : Coerente placeOf s) (acoes : List Acao)
    (oportunas : Allowed (passo limites placeOf) (Oportuna placeOf) s acoes)
    (chegou : run (passo limites placeOf) s acoes = some t) :
    (∀ row ∈ t.linhas, TemCopia placeOf t row) ∧
      ∀ c ∈ t.ciclo.confirmados, (t.objetos (placeOf c.1) c.2).isSome = true := by
  have ok := run_invariant _ (passo_integro limites) s t acoes oportunas coerente.integro chegou
  exact ⟨ok.copia, ok.confirmados⟩

end Seguranca

section Corrida

variable {Place : Type} [DecidableEq Place]

instance (placeOf : Option Text → Place) (s : Estado Place) (row : Recording) :
    Decidable (TemObjeto placeOf s row) :=
  decidable_of_iff
    ((row.cloudKey.any fun chave => (s.objetos (placeOf row.cloudStorageId) chave).isSome) = true) (by
      rw [TemObjeto]
      cases row.cloudKey with
      | none => simp
      | some chave => simp)

instance (placeOf : Option Text → Place) (s : Estado Place) (row : Recording) :
    Decidable (TemCopia placeOf s row) := inferInstanceAs (Decidable (_ ∨ _))

instance (row : Recording) : Decidable (Podavel row) := inferInstanceAs (Decidable (_ ∧ _ ∧ _ ∧ _))

def nuvem : Storage := ⟨some ['s'], true, 0, 6⟩

def politicaPadrao : StoragePolicy := ⟨true, ["continuous".toList], false⟩

def limitesPadrao : Limites := ⟨25, 200, 5000⟩

/-- A recording that is only in the bucket, and one that is only on the disk. -/
def acervo : Estado (Option Text) where
  linhas := [
    { id := ['a'], cameraId := ['c'], triggerMode := "continuous".toList, startedAt := 0,
      endedAt := some 60, filePath := "c/a.mp4".toList, sizeBytes := some 5,
      cloudKey := some "recordings/c/a.mp4".toList, cloudUploadedAt := some 70,
      cloudStorageId := some ['s'], localDeletedAt := some 80, cloudMissingSince := none },
    { id := ['b'], cameraId := ['c'], triggerMode := "continuous".toList, startedAt := 60,
      endedAt := some 120, filePath := "c/b.mp4".toList, sizeBytes := some 5, cloudKey := none,
      cloudUploadedAt := none, cloudStorageId := none, localDeletedAt := none,
      cloudMissingSince := none }]
  arquivos := fun caminho => if caminho = "c/b.mp4".toList then some 5 else none
  objetos := fun place chave =>
    if place = some ['s'] ∧ chave = "recordings/c/a.mp4".toList then some 5 else none
  ciclo := .parado
  varredura := .parada
  inverificaveis := []

theorem acervo_coerente : Coerente id acervo := by
  refine ⟨?_, ?_, ?_, rfl, rfl⟩ <;> decide +kernel

def paginaDoBucket : List Text := ["recordings/c/a.mp4".toList, "recordings/c/b.mp4".toList]

/-- The sweep looks the keys up between the HEAD and the update, and deletes after it. -/
def cruzada : List Acao :=
  [.iniciarCiclo nuvem politicaPadrao true, .puxar, .medir 0, .enviar 0 5, .conferir 0 true true,
   .iniciarVarredura [some ['s']], .listarPagina paginaDoBucket false, .procurarDonos,
   .registrar 0 130, .apagar true true, .apagar true true, .fimDaPagina, .fimDaPagina,
   .iniciarPoda politicaPadrao 140, .removerLocal false, .marcarRemovido 140, .encerrarCiclo]

theorem cruzada_loses_recording : Coerente id acervo ∧ ∃ t row,
    run (passo limitesPadrao id) acervo cruzada = some t ∧ row ∈ t.linhas ∧ ¬ TemCopia id t row := by
  have perde : ((run (passo limitesPadrao id) acervo cruzada).any fun t =>
      t.linhas.any fun row => decide (¬ TemCopia id t row)) = true := by
    decide +kernel
  simp only [Option.any_eq_true, any_eq_true, decide_eq_true_eq] at perde
  obtain ⟨t, chegou, row, member, semCopia⟩ := perde
  exact ⟨acervo_coerente, t, row, chegou, member, semCopia⟩

/-- The same work, with the look-up after the registration. -/
def separada : List Acao :=
  [.iniciarCiclo nuvem politicaPadrao true, .puxar, .medir 0, .enviar 0 5, .conferir 0 true true,
   .iniciarVarredura [some ['s']], .listarPagina paginaDoBucket false, .registrar 0 130,
   .procurarDonos, .apagar true true, .apagar true true, .fimDaPagina, .fimDaPagina,
   .iniciarPoda politicaPadrao 140, .removerLocal false, .marcarRemovido 140, .encerrarCiclo]

instance (placeOf : Option Text → Place) (s : Estado Place) :
    (acao : Acao) → Decidable (Oportuna placeOf s acao)
  | .procurarDonos => inferInstanceAs (Decidable (∀ c ∈ s.varredura.consultadas,
      (∀ d ∈ s.ciclo.confirmados, _ → _ ≠ _) ∧ ∀ row ∈ s.linhas, _ → _ → _ = _))
  | .conferir i _ _ => inferInstanceAs (Decidable (∀ d ∈ s.ciclo.conferida i,
      ∀ c ∈ s.varredura.condenadas, _ → _ ≠ _))
  | .iniciarCiclo _ _ _ | .puxar | .medir _ | .enviar _ _ | .registrar _ _ | .falhar _
  | .iniciarPoda _ _ | .removerLocal _ | .marcarRemovido _ | .encerrarCiclo | .iniciarVarredura _
  | .listarPagina _ _ | .contarDonos | .apagar _ _ | .fimDaPagina | .falharVarredura | .gravar _ _
  | .excluir _ => isTrue trivial

theorem separada_keeps_copies : ∃ t, run (passo limitesPadrao id) acervo separada = some t ∧
    ∀ row ∈ t.linhas, TemCopia id t row := by
  have termina : (run (passo limitesPadrao id) acervo separada).isSome = true := by decide +kernel
  obtain ⟨t, chegou⟩ := Option.isSome_iff_exists.mp termina
  have oportunas := allowedBy_allowed (passo limitesPadrao id) (Oportuna id) acervo separada
    (by decide +kernel)
  exact ⟨t, chegou, (offload_keeps_copies limitesPadrao acervo_coerente separada oportunas chegou).1⟩

end Corrida

end DracVms.OffloadSweep
