import DracVms.CloudStorage.StorageResolver
import DracVms.Library.Runs

namespace DracVms.StorageResolver

open List Json JsString Database Runs

variable {id : Text}

section Leitura

variable (decrypt : Text → Option Text)

/-- The row says that its object is in a bucket, in a storage that was not purged. -/
def Viva (g : Gravacao) : Prop := g.row.cloudKey.isSome = true ∧ g.expurgada = false

instance (g : Gravacao) : Decidable (Viva g) := inferInstanceAs (Decidable (_ ∧ _))

/-- Every uploaded recording is read from the storage that it was uploaded to. -/
def LeDaOrigem (b : Banco) : Prop :=
  ∀ g ∈ b.gravacoes, Viva g → ∃ destino,
    storageDaGravacao decrypt b g.row.cloudStorageId = some destino ∧
      g.origem = some destino.endereco

def UmAtivo (b : Banco) : Prop := (b.storages.filter CloudStorage.isActive).length ≤ 1

structure BancoOk (b : Banco) : Prop where
  novos : (b.historico.map Prod.fst).Nodup
  uuid : ∀ id endereco, (id, endereco) ∈ b.historico → id ≠ []
  ids : (b.storages.map CloudStorage.id).Nodup
  enderecos : ∀ linha ∈ b.storages, (linha.id, linha.endereco) ∈ b.historico
  legiveis : ∀ linha ∈ b.storages, (decrypt linha.secretAccessKeyEncrypted).isSome = true
  ativo : ∀ linha ∈ b.storages, ∀ outra ∈ b.storages, linha.isActive = true →
    outra.isActive = true → linha.id = outra.id
  chaves : ∀ g ∈ b.gravacoes, StorageExiste b g.row.cloudStorageId

/-- What a call has read of the table: ids, with the addresses that they had from the start. -/
def ChamadaOk (b : Banco) : Chamada → Prop
  | .atualizando config existente | .contando config (some existente)
  | .registrando config (some existente) _ =>
    existente.endereco = config.endereco ∧ (existente.id, existente.endereco) ∈ b.historico
  | .promovendo candidato resolvido =>
    resolvido.id = some candidato.id ∧ (candidato.id, resolvido.endereco) ∈ b.historico
  | .devolvida destino => ∃ id, destino.id = some id ∧ (id, destino.endereco) ∈ b.historico
  | _ => True

/-- The provisioned address is the one that the object was sent to. -/
def vale (provisionado : Option CloudStorageConfig) (g : Gravacao) : Bool :=
  provisionado.any fun config => decide (g.origem = some config.endereco)

/-- Where the row points: to the provisioned address, or to the one that its storage had from the
start. -/
def Aponta (b : Banco) (g : Gravacao) : Prop :=
  match g.row.cloudStorageId with
  | none => vale b.provisionado g = true
  | some id => ∃ endereco, g.origem = some endereco ∧ (id, endereco) ∈ b.historico

def TudoAponta (b : Banco) : Prop := ∀ g ∈ b.gravacoes, Viva g → Aponta b g

variable {decrypt} {b : Banco}

theorem endereco_unico (ok : BancoOk decrypt b) {e f : Endereco} (first : (id, e) ∈ b.historico)
    (second : (id, f) ∈ b.historico) : e = f := by
  have same := inj_on_of_nodup_map ok.novos first second rfl
  exact congrArg Prod.snd same

theorem umAtivo_of_ok (ok : BancoOk decrypt b) : UmAtivo b := by
  unfold UmAtivo
  have nodup : ((b.storages.filter CloudStorage.isActive).map CloudStorage.id).Nodup :=
    ok.ids.sublist (filter_sublist.map _)
  cases ativos : b.storages.filter CloudStorage.isActive with
  | nil => simp
  | cons linha rest =>
    cases rest with
    | nil => simp
    | cons outra rest =>
      have linhaIn : linha ∈ b.storages.filter CloudStorage.isActive := by simp [ativos]
      have outraIn : outra ∈ b.storages.filter CloudStorage.isActive := by simp [ativos]
      rw [mem_filter] at linhaIn outraIn
      have same := ok.ativo linha linhaIn.1 outra outraIn.1 linhaIn.2 outraIn.2
      rw [ativos] at nodup
      simp [same] at nodup

variable {linha : CloudStorage}

theorem materializar_some (legivel : (decrypt linha.secretAccessKeyEncrypted).isSome = true) :
    ∃ destino, materializar decrypt linha = some destino ∧ destino.endereco = linha.endereco := by
  obtain ⟨secret, lido⟩ := Option.isSome_iff_exists.mp legivel
  unfold materializar
  rw [lido]
  exact ⟨_, rfl, rfl⟩

theorem materializar_eq {destino : StorageResolvido}
    (lido : materializar decrypt linha = some destino) :
    destino.id = some linha.id ∧ destino.endereco = linha.endereco := by
  obtain ⟨secret, -, rfl⟩ := Option.map_eq_some_iff.mp lido
  exact ⟨rfl, rfl⟩

theorem mem_of_acharStorage (achada : acharStorage b id = some linha) :
    linha ∈ b.storages ∧ linha.id = id := by
  have same := List.find?_some achada
  exact ⟨List.mem_of_find?_eq_some achada, of_decide_eq_true same⟩

theorem acharStorage_some (existe : id ∈ b.storages.map CloudStorage.id) :
    ∃ linha, acharStorage b id = some linha := by
  apply Option.isSome_iff_exists.mp
  obtain ⟨linha, member, same⟩ := mem_map.mp existe
  exact List.find?_isSome.mpr ⟨linha, member, decide_eq_true same⟩

theorem storageDaGravacao_some (ok : BancoOk decrypt b) (id : Text)
    (existe : id ∈ b.storages.map CloudStorage.id) : ∃ destino,
      storageDaGravacao decrypt b (some id) = some destino ∧ (id, destino.endereco) ∈ b.historico := by
  obtain ⟨linha, achada⟩ := acharStorage_some existe
  obtain ⟨member, same⟩ := mem_of_acharStorage achada
  have guardada := ok.enderecos linha member
  obtain ⟨destino, lido, endereco⟩ := materializar_some (ok.legiveis linha member)
  rw [same, ← endereco] at guardada
  cases id with
  | nil => exact absurd rfl (ok.uuid _ _ guardada)
  | cons c rest =>
    refine ⟨destino, ?_, guardada⟩
    simp only [storageDaGravacao, achada, Option.bind_some, lido]

theorem leDaOrigem_iff (ok : BancoOk decrypt b) : LeDaOrigem decrypt b ↔ TudoAponta b := by
  have cada : ∀ g ∈ b.gravacoes, (∃ destino,
      storageDaGravacao decrypt b g.row.cloudStorageId = some destino ∧
        g.origem = some destino.endereco) ↔ Aponta b g := by
    intro g member
    have existe := ok.chaves g member
    unfold Aponta
    cases storage : g.row.cloudStorageId with
    | none =>
      simp only [storageDaGravacao, legado, Option.map_eq_some_iff, vale, Option.any_eq_true,
        decide_eq_true_eq]
      constructor
      · rintro ⟨destino, ⟨config, provisionado, rfl⟩, origem⟩
        exact ⟨config, provisionado, origem⟩
      · rintro ⟨config, provisionado, origem⟩
        exact ⟨_, ⟨config, provisionado, rfl⟩, origem⟩
    | some id =>
      obtain ⟨destino, lido, guardado⟩ := storageDaGravacao_some ok id (existe id storage)
      constructor
      · rintro ⟨outro, lidoOutro, origem⟩
        rw [lido] at lidoOutro
        cases lidoOutro
        exact ⟨destino.endereco, origem, guardado⟩
      · rintro ⟨endereco, origem, antigo⟩
        rw [endereco_unico ok antigo guardado] at origem
        exact ⟨destino, lido, origem⟩
  constructor
  · intro le g member viva
    exact (cada g member).mp (le g member viva)
  · intro aponta g member viva
    exact (cada g member).mpr (aponta g member viva)

end Leitura

section Tabelas

variable {decrypt : Text → Option Text} {b : Banco}

/-- Rows of the table that change, with their ids and addresses. -/
theorem mapear_ok (ok : BancoOk decrypt b) (mudar : CloudStorage → CloudStorage)
    (mesma : ∀ linha ∈ b.storages, (mudar linha).id = linha.id ∧
      (mudar linha).endereco = linha.endereco ∧
      (decrypt (mudar linha).secretAccessKeyEncrypted).isSome = true)
    (ativo : ∀ linha ∈ b.storages, ∀ outra ∈ b.storages, (mudar linha).isActive = true →
      (mudar outra).isActive = true → linha.id = outra.id) :
    BancoOk decrypt { b with storages := b.storages.map mudar } := by
  have ids : (b.storages.map mudar).map CloudStorage.id = b.storages.map CloudStorage.id := by
    rw [map_map]
    apply map_congr_left
    intro linha member
    exact (mesma linha member).1
  refine ⟨ok.novos, ok.uuid, ids ▸ ok.ids, ?_, ?_, ?_, ?_⟩
  · intro linha member
    obtain ⟨antes, inAntes, rfl⟩ := mem_map.mp member
    rw [(mesma antes inAntes).1, (mesma antes inAntes).2.1]
    exact ok.enderecos antes inAntes
  · intro linha member
    obtain ⟨antes, inAntes, rfl⟩ := mem_map.mp member
    exact (mesma antes inAntes).2.2
  · intro linha member outra inOutra ligada ligadaOutra
    obtain ⟨antes, inAntes, rfl⟩ := mem_map.mp member
    obtain ⟨depois, inDepois, rfl⟩ := mem_map.mp inOutra
    rw [(mesma antes inAntes).1, (mesma depois inDepois).1]
    exact ativo antes inAntes depois inDepois ligada ligadaOutra
  · intro g member id same
    rw [ids]
    exact ok.chaves g member id same

theorem desativar_ok (ok : BancoOk decrypt b) :
    BancoOk decrypt { b with storages := desativar b.storages } := by
  apply mapear_ok ok fun linha => { linha with isActive := false }
  · intro linha member
    exact ⟨rfl, rfl, ok.legiveis linha member⟩
  · intro linha member outra inOutra ligada
    cases ligada

/-- One row of the table changes, and no other row is active if it becomes so. -/
theorem mudarStorage_ok (ok : BancoOk decrypt b) (id : Text) (mudar : CloudStorage → CloudStorage)
    (mesma : ∀ linha ∈ b.storages, linha.id = id → (mudar linha).id = id ∧
      (mudar linha).endereco = linha.endereco ∧
      (decrypt (mudar linha).secretAccessKeyEncrypted).isSome = true)
    (ativo : (∀ linha ∈ b.storages, linha.id = id → (mudar linha).isActive = linha.isActive) ∨
      ∀ linha ∈ b.storages, linha.isActive = false) :
    BancoOk decrypt { b with storages := mudarStorage b.storages id mudar } := by
  apply mapear_ok ok fun linha => if linha.id = id then mudar linha else linha
  · intro linha member
    by_cases dele : linha.id = id
    · rw [if_pos dele, dele]
      exact mesma linha member dele
    · rw [if_neg dele]
      exact ⟨rfl, rfl, ok.legiveis linha member⟩
  · intro linha member outra inOutra ligada ligadaOutra
    rcases ativo with iguais | desligadas
    · have antes : ∀ l ∈ b.storages,
          (if l.id = id then mudar l else l).isActive = l.isActive := by
        intro l inL
        by_cases dele : l.id = id
        · rw [if_pos dele]
          exact iguais l inL dele
        · rw [if_neg dele]
      rw [antes linha member] at ligada
      rw [antes outra inOutra] at ligadaOutra
      exact ok.ativo linha member outra inOutra ligada ligadaOutra
    · have dele : ∀ l ∈ b.storages, (if l.id = id then mudar l else l).isActive = true →
          l.id = id := by
        intro l inL ligado
        by_contra diferente
        rw [if_neg diferente, desligadas l inL] at ligado
        cases ligado
      exact (dele linha member ligada).trans (dele outra inOutra ligadaOutra).symm

variable (linhas : List CloudStorage)

theorem desativar_off : ∀ linha ∈ desativar linhas, linha.isActive = false := by
  intro linha member
  obtain ⟨antes, -, rfl⟩ := mem_map.mp member
  rfl

theorem ids_desativar : (desativar linhas).map CloudStorage.id = linhas.map CloudStorage.id := by
  unfold desativar
  rw [map_map]
  rfl

theorem ids_mudarStorage (id : Text) (mudar : CloudStorage → CloudStorage)
    (mesma : ∀ linha, (mudar linha).id = linha.id) :
    (mudarStorage linhas id mudar).map CloudStorage.id = linhas.map CloudStorage.id := by
  unfold mudarStorage
  rw [map_map]
  apply map_congr_left
  intro linha _
  show (if linha.id = id then mudar linha else linha).id = linha.id
  split
  · exact mesma linha
  · rfl

theorem ativar_ok (ok : BancoOk decrypt b) (id : Text) :
    BancoOk decrypt { b with storages := ativar b.storages id } := by
  apply mudarStorage_ok (desativar_ok ok) id
  · intro linha member dele
    exact ⟨dele, rfl, (desativar_ok ok).legiveis linha member⟩
  · exact Or.inr (desativar_off b.storages)

theorem gravacoes_ok (ok : BancoOk decrypt b) (gravacoes : List Gravacao)
    (chaves : ∀ g ∈ gravacoes, StorageExiste b g.row.cloudStorageId) :
    BancoOk decrypt { b with gravacoes := gravacoes } :=
  ⟨ok.novos, ok.uuid, ok.ids, ok.enderecos, ok.legiveis, ok.ativo, chaves⟩

theorem novaLinha_ok (ok : BancoOk decrypt b) (config : StorageResolvido) (id cifrado : Text)
    (agora : Instant) (novo : IdNovo b id) (legivel : decrypt cifrado = some config.secretAccessKey) :
    BancoOk decrypt { b with
      storages := desativar b.storages ++ [novaLinha config id cifrado agora]
      historico := (id, config.endereco) :: b.historico } := by
  have antes := desativar_ok ok
  have foraDaTabela : id ∉ b.storages.map CloudStorage.id := by
    intro member
    obtain ⟨linha, inTabela, same⟩ := mem_map.mp member
    have guardada := ok.enderecos linha inTabela
    rw [same] at guardada
    exact novo.2 (mem_map.mpr ⟨_, guardada, rfl⟩)
  refine ⟨nodup_cons.mpr ⟨novo.2, ok.novos⟩, ?_, ?_, ?_, ?_, ?_, ?_⟩
  · intro other endereco member
    rcases mem_cons.mp member with same | member
    · cases same
      exact novo.1
    · exact ok.uuid other endereco member
  · rw [map_append, ids_desativar]
    apply nodup_append.mpr
    refine ⟨ok.ids, nodup_singleton _, ?_⟩
    intro other member x inNova
    rw [map_singleton, mem_singleton] at inNova
    rw [inNova]
    intro same
    rw [same] at member
    exact foraDaTabela member
  · intro linha member
    rcases mem_append.mp member with member | member
    · exact mem_cons_of_mem _ (antes.enderecos linha member)
    · rw [mem_singleton.mp member]
      exact mem_cons_self
  · intro linha member
    rcases mem_append.mp member with member | member
    · exact antes.legiveis linha member
    · rw [mem_singleton.mp member]
      show (decrypt cifrado).isSome = true
      rw [legivel]
      rfl
  · intro linha member outra inOutra ligada ligadaOutra
    have nova : ∀ l ∈ desativar b.storages ++ [novaLinha config id cifrado agora],
        l.isActive = true → l.id = id := by
      intro l inL ligado
      rcases mem_append.mp inL with inL | inL
      · rw [desativar_off b.storages l inL] at ligado
        cases ligado
      · rw [mem_singleton.mp inL]
        rfl
    exact (nova linha member ligada).trans (nova outra inOutra ligadaOutra).symm
  · intro g member other same
    rw [map_append, ids_desativar]
    exact mem_append_left _ (ok.chaves g member other same)

theorem apagarStorage_ok (ok : BancoOk decrypt b) (id : Text) (expurgo : Bool) :
    BancoOk decrypt (apagarStorage b id expurgo) := by
  unfold apagarStorage
  split
  · refine ⟨ok.novos, ok.uuid, ok.ids.sublist (filter_sublist.map _), ?_, ?_, ?_, ?_⟩
    · intro linha member
      exact ok.enderecos linha (mem_of_mem_filter member)
    · intro linha member
      exact ok.legiveis linha (mem_of_mem_filter member)
    · intro linha member outra inOutra
      exact ok.ativo linha (mem_of_mem_filter member) outra (mem_of_mem_filter inOutra)
    · intro g member other same
      obtain ⟨antes, inAntes, rfl⟩ := mem_map.mp member
      unfold semReferencia at same
      split at same
      · cases same
      · rename_i fora
        obtain ⟨linha, inTabela, dela⟩ := mem_map.mp (ok.chaves antes inAntes other same)
        have outroId : linha.id ≠ id := by
          intro igual
          apply fora
          rw [noStorage, same, ← dela, igual]
          exact decide_eq_true rfl
        rw [← dela]
        apply mem_map_of_mem
        exact mem_filter.mpr ⟨inTabela, decide_eq_true outroId⟩
  · exact ok

end Tabelas

section Passos

variable {decrypt : Text → Option Text} {b b' : Banco}

/-- When a call may go on: the first registration anchors only rows of its own address, and the
operator removes a storage only when its rows are left with the provisioned address. -/
def AncoraCerta (b : Banco) : Chamada → Resposta → Prop
  | .registrando config existente true, .gravar true _ _ _ => alvoExiste b existente = true →
      ∀ g ∈ b.gravacoes, Viva g → g.row.cloudStorageId = none → g.origem = some config.endereco
  | .apagandoCadastro id, .seguir => id ∈ b.storages.map CloudStorage.id →
      ∀ g ∈ b.gravacoes, Viva g → g.row.cloudStorageId = some id → vale b.provisionado g = true
  | _, _ => True

/-- What one answer leaves. -/
structure Depois (decrypt : Text → Option Text) (b : Banco) (c : Chamada) (resposta : Resposta)
    (b' : Banco) (seguinte : Option Chamada) : Prop where
  ok : BancoOk decrypt b'
  cresce : ∀ p ∈ b.historico, p ∈ b'.historico
  chamada : ∀ c', seguinte = some c' → ChamadaOk b' c'
  aponta : TudoAponta b → (TudoAponta b' ↔ AncoraCerta b c resposta)

variable {c : Chamada}

theorem ChamadaOk.mono (ok : ChamadaOk b c) (cresce : ∀ p ∈ b.historico, p ∈ b'.historico) :
    ChamadaOk b' c := by
  cases c with
  | atualizando config existente => exact ⟨ok.1, cresce _ ok.2⟩
  | contando config existente | registrando config existente primeiro =>
    cases existente with
    | none => trivial
    | some existente => exact ⟨ok.1, cresce _ ok.2⟩
  | promovendo candidato resolvido => exact ⟨ok.1, cresce _ ok.2⟩
  | devolvida destino =>
    obtain ⟨id, dele, guardado⟩ := ok
    exact ⟨id, dele, cresce _ guardado⟩
  | _ => trivial

/-- Recordings that stay as they are, or go. -/
theorem tudoAponta_mono (aponta : TudoAponta b)
    (gravacoes : ∀ g ∈ b'.gravacoes, Viva g → g ∈ b.gravacoes)
    (provisionado : b'.provisionado = b.provisionado)
    (cresce : ∀ p ∈ b.historico, p ∈ b'.historico) : TudoAponta b' := by
  intro g member viva
  have antes := aponta g (gravacoes g member viva) viva
  unfold Aponta at antes ⊢
  cases storage : g.row.cloudStorageId with
  | none =>
    rw [storage] at antes
    rw [provisionado]
    exact antes
  | some id =>
    rw [storage] at antes
    obtain ⟨endereco, origem, guardado⟩ := antes
    exact ⟨endereco, origem, cresce _ guardado⟩

variable {seguinte : Option Chamada} {resposta : Resposta}

/-- An answer that touches no recording. -/
theorem depois_of_tabela (ok : BancoOk decrypt b') (gravacoes : b'.gravacoes = b.gravacoes)
    (provisionado : b'.provisionado = b.provisionado) (cresce : ∀ p ∈ b.historico, p ∈ b'.historico)
    (livre : AncoraCerta b c resposta) (chamada : ∀ c', seguinte = some c' → ChamadaOk b' c') :
    Depois decrypt b c resposta b' seguinte := by
  refine ⟨ok, cresce, chamada, ?_⟩
  intro aponta
  refine ⟨fun _ => livre, fun _ => ?_⟩
  apply tudoAponta_mono aponta _ provisionado cresce
  intro g member _
  exact gravacoes ▸ member

/-- An answer that only reads. -/
theorem depois_of_leitura (ok : BancoOk decrypt b) (livre : AncoraCerta b c resposta)
    (chamada : ∀ c', seguinte = some c' → ChamadaOk b c') :
    Depois decrypt b c resposta b seguinte :=
  depois_of_tabela ok rfl rfl (fun _ member => member) livre chamada

variable {config : StorageResolvido} {linha : CloudStorage}

theorem devolver_ok {destino : Option StorageResolvido}
    (lido : destino = materializar decrypt linha)
    (guardada : (linha.id, linha.endereco) ∈ b.historico) :
    ∀ c', devolver (comOperacao destino config) = some c' → ChamadaOk b c' := by
  intro c' devolvida
  unfold devolver comOperacao at devolvida
  rw [Option.map_map, Option.map_eq_some_iff] at devolvida
  obtain ⟨resolvido, same, rfl⟩ := devolvida
  obtain ⟨id, endereco⟩ := materializar_eq (lido.symm.trans same)
  exact ⟨linha.id, id, endereco ▸ guardada⟩

theorem noStorage_iff (storage : Option Text) (g : Gravacao) :
    noStorage storage g = true ↔ g.row.cloudStorageId = storage := decide_eq_true_iff

theorem ancorar_viva {alvo : Text} {g : Gravacao} : Viva (ancorar alvo g) ↔ Viva g := by
  unfold ancorar
  split
  all_goals exact Iff.rfl

variable {existente : Option CloudStorage}

/-- The row that the transaction registers is there, with the provisioned address. -/
theorem tabelaRegistrada_ok (ok : BancoOk decrypt b) {id cifrado : Text} (agora : Instant)
    (existe : alvoExiste b existente = true) (novo : existente = none → IdNovo b id)
    (legivel : decrypt cifrado = some config.secretAccessKey) {primeiro : Bool}
    (lida : ChamadaOk b (.registrando config existente primeiro)) :
    BancoOk decrypt (registrar b config existente false id cifrado agora) ∧
      (existente.map CloudStorage.id).getD id ∈
        (registrar b config existente false id cifrado agora).storages.map CloudStorage.id ∧
      ((existente.map CloudStorage.id).getD id, config.endereco) ∈
        (registrar b config existente false id cifrado agora).historico ∧
      ∀ p ∈ b.historico, p ∈ (registrar b config existente false id cifrado agora).historico := by
  cases existente with
  | none =>
    refine ⟨novaLinha_ok ok config id cifrado agora (novo rfl) legivel, ?_, ?_, ?_⟩
    · show id ∈ (desativar b.storages ++ [novaLinha config id cifrado agora]).map CloudStorage.id
      rw [map_append]
      exact mem_append_right _ mem_cons_self
    · exact mem_cons_self
    · intro p member
      exact mem_cons_of_mem _ member
  | some linha =>
    obtain ⟨endereco, guardada⟩ := lida
    refine ⟨?_, ?_, endereco ▸ guardada, fun p member => member⟩
    · apply mudarStorage_ok (desativar_ok ok) linha.id (dados config cifrado)
      · intro antes member dela
        refine ⟨dela, ?_, ?_⟩
        · have outra := (desativar_ok ok).enderecos antes member
          rw [dela] at outra
          have igual := endereco_unico (desativar_ok ok) outra guardada
          exact (igual.trans endereco).symm
        · show (decrypt cifrado).isSome = true
          rw [legivel]
          rfl
      · exact Or.inr (desativar_off b.storages)
    · show linha.id ∈ (mudarStorage (desativar b.storages) linha.id (dados config cifrado)).map
        CloudStorage.id
      rw [ids_mudarStorage _ _ (dados config cifrado) (fun _ => rfl), ids_desativar]
      exact of_decide_eq_true existe

theorem registrar_depois (ok : BancoOk decrypt b) {primeiro : Bool} {id cifrado : Text}
    (agora : Instant) (existe : alvoExiste b existente = true)
    (novo : existente = none → IdNovo b id)
    (legivel : decrypt cifrado = some config.secretAccessKey)
    (lida : ChamadaOk b (.registrando config existente primeiro)) (seguinte : Text) :
    Depois decrypt b (.registrando config existente primeiro) (.gravar true id cifrado agora)
      (registrar b config existente primeiro id cifrado agora) (some (.relendo config seguinte)) := by
  obtain ⟨okTabela, naTabela, guardado, cresce⟩ :=
    tabelaRegistrada_ok ok agora existe novo legivel lida
  have tranquila : ∀ c', some (Chamada.relendo config seguinte) = some c' →
      ChamadaOk (registrar b config existente primeiro id cifrado agora) c' := by
    intro c' same
    cases same
    trivial
  cases primeiro with
  | false => exact depois_of_tabela okTabela rfl rfl cresce trivial tranquila
  | true =>
    refine ⟨?_, cresce, tranquila, ?_⟩
    · apply gravacoes_ok okTabela
      intro g member
      obtain ⟨antes, inAntes, rfl⟩ := mem_map.mp member
      unfold ancorar
      split
      · intro other same
        cases same
        exact naTabela
      · exact okTabela.chaves antes inAntes
    · intro aponta
      constructor
      · intro depois _ g member viva semId
        have ancorada := depois (ancorar _ g) (mem_map_of_mem member) (ancorar_viva.mpr viva)
        have muda : (noStorage none g && g.row.cloudKey.isSome) = true := by
          rw [Bool.and_eq_true]
          exact ⟨(noStorage_iff none g).mpr semId, viva.1⟩
        rw [ancorar, if_pos muda] at ancorada
        obtain ⟨endereco, origem, outro⟩ := ancorada
        rw [endereco_unico okTabela guardado outro]
        exact origem
      · intro certa g member viva
        obtain ⟨antes, inAntes, rfl⟩ := mem_map.mp member
        have vivaAntes := ancorar_viva.mp viva
        by_cases semId : antes.row.cloudStorageId = none
        · have muda : (noStorage none antes && antes.row.cloudKey.isSome) = true := by
            rw [Bool.and_eq_true]
            exact ⟨(noStorage_iff none antes).mpr semId, vivaAntes.1⟩
          rw [ancorar, if_pos muda]
          exact ⟨config.endereco, certa existe antes inAntes vivaAntes semId, guardado⟩
        · have fica : ¬ (noStorage none antes && antes.row.cloudKey.isSome) = true := by
            rw [Bool.and_eq_true, noStorage_iff]
            exact fun both => semId both.1
          rw [ancorar, if_neg fica]
          have antigo := aponta antes inAntes vivaAntes
          obtain ⟨storage, nomeia⟩ := Option.ne_none_iff_exists'.mp semId
          unfold Aponta at antigo ⊢
          rw [nomeia] at antigo ⊢
          obtain ⟨endereco, origem, velho⟩ := antigo
          exact ⟨endereco, origem, cresce _ velho⟩

theorem apagarStorage_aponta (id : Text) (aponta : TudoAponta b) :
    TudoAponta (apagarStorage b id true) ∧
      (TudoAponta (apagarStorage b id false) ↔ AncoraCerta b (.apagandoCadastro id) .seguir) := by
  have fora : ∀ expurgo g, g ∈ b.gravacoes → g.row.cloudStorageId ≠ some id →
      semReferencia id expurgo g = g := by
    intro expurgo g _ outro
    unfold semReferencia
    rw [if_neg (fun dela => outro ((noStorage_iff _ g).mp dela))]
  have resto : ∀ expurgo g, g ∈ b.gravacoes → Viva g → g.row.cloudStorageId ≠ some id →
      Aponta (apagarStorage b id expurgo) g := by
    intro expurgo g member viva _
    have antes := aponta g member viva
    unfold apagarStorage
    split
    all_goals exact antes
  by_cases existe : id ∈ b.storages.map CloudStorage.id
  · have linhas : ∀ expurgo, (apagarStorage b id expurgo).gravacoes =
        b.gravacoes.map (semReferencia id expurgo) := by
      intro expurgo
      rw [apagarStorage, if_pos existe]
    have provisionado : ∀ expurgo, (apagarStorage b id expurgo).provisionado = b.provisionado := by
      intro expurgo
      rw [apagarStorage, if_pos existe]
    refine ⟨?_, ?_, ?_⟩
    · intro g member viva
      rw [linhas] at member
      obtain ⟨antes, inAntes, rfl⟩ := mem_map.mp member
      by_cases dela : antes.row.cloudStorageId = some id
      · rw [semReferencia, if_pos ((noStorage_iff _ antes).mpr dela)] at viva
        have expurgada := viva.2
        rw [Bool.or_true] at expurgada
        cases expurgada
      · rw [fora true antes inAntes dela] at viva ⊢
        exact resto true antes inAntes viva dela
    · intro depois _ g member viva dela
      have muda : semReferencia id false g =
          { g with row := { g.row with cloudStorageId := none } } := by
        rw [semReferencia, if_pos ((noStorage_iff _ g).mpr dela), Bool.or_false]
      have inDepois : semReferencia id false g ∈ (apagarStorage b id false).gravacoes := by
        rw [linhas]
        exact mem_map_of_mem member
      have solta := depois _ inDepois (muda ▸ viva)
      rw [muda] at solta
      have certa : vale (apagarStorage b id false).provisionado g = true := solta
      rw [provisionado] at certa
      exact certa
    · intro certa g member viva
      rw [linhas] at member
      obtain ⟨antes, inAntes, rfl⟩ := mem_map.mp member
      by_cases dela : antes.row.cloudStorageId = some id
      · rw [semReferencia, if_pos ((noStorage_iff _ antes).mpr dela), Bool.or_false] at viva ⊢
        show vale (apagarStorage b id false).provisionado antes = true
        rw [provisionado]
        exact certa existe antes inAntes viva dela
      · rw [fora false antes inAntes dela] at viva ⊢
        exact resto false antes inAntes viva dela
  · have igual : ∀ expurgo, apagarStorage b id expurgo = b := by
      intro expurgo
      rw [apagarStorage, if_neg existe]
    rw [igual, igual]
    exact ⟨aponta, fun _ naTabela => absurd naTabela existe, fun _ => aponta⟩

theorem apagarStorage_historico (id : Text) (expurgo : Bool) :
    (apagarStorage b id expurgo).historico = b.historico := by
  unfold apagarStorage
  split
  all_goals rfl

theorem mem_noEndereco {endereco : Endereco}
    (achada : (noEndereco b endereco).find? (fun l => l.id = id) = some linha) :
    linha ∈ b.storages ∧ linha.endereco = endereco := by
  have member := List.mem_of_find?_eq_some achada
  rw [noEndereco, mem_filter] at member
  exact ⟨member.1, of_decide_eq_true member.2⟩

theorem depoisDeAchar_ok (ok : BancoOk decrypt b) {existente : CloudStorage}
    (member : existente ∈ b.storages) (endereco : existente.endereco = config.endereco) :
    ∀ c', depoisDeAchar decrypt config existente = some c' → ChamadaOk b c' := by
  intro c' seguinte
  have lida := ok.enderecos existente member
  unfold depoisDeAchar at seguinte
  split at seguinte
  · split at seguinte
    · cases seguinte
      exact ⟨endereco, lida⟩
    · exact devolver_ok rfl lida c' seguinte
  · cases seguinte
    exact ⟨endereco, lida⟩

theorem dadosNovos_ok (ok : BancoOk decrypt b) {cifrado : Text} {existente : CloudStorage}
    (legivel : decrypt cifrado = some config.secretAccessKey) : BancoOk decrypt { b with
      storages := mudarStorage b.storages existente.id
        (dadosNovos decrypt config cifrado existente) } := by
  apply mudarStorage_ok ok
  · intro linha member dela
    refine ⟨dela, rfl, ?_⟩
    show (decrypt (if _ then cifrado else linha.secretAccessKeyEncrypted)).isSome = true
    split
    · rw [legivel]
      rfl
    · exact ok.legiveis linha member
  · exact Or.inl fun _ _ _ => rfl

theorem mem_maisRecentes (member : linha ∈ maisRecentes b.storages) : linha ∈ b.storages := by
  exact (perm_insertionSort _ _).mem_iff.mp (mem_of_mem_take member)

theorem mudo (trivial : ∀ b : Banco, ChamadaOk b c) : ∀ c', some c = some c' → ChamadaOk b c' := by
  intro c' same
  cases same
  exact trivial b

theorem calado : ∀ c', (none : Option Chamada) = some c' → ChamadaOk b c' := nofun

theorem pausar_ok (ativo : Bool) : ∀ c', pausar ativo = some c' → ChamadaOk b c' := by
  cases ativo with
  | false => exact calado
  | true => exact mudo fun _ => trivial

theorem depoisDoAtivo_ok (estado : CloudStorageState) (ativo : Bool) :
    ∀ c', depoisDoAtivo estado ativo = some c' → ChamadaOk b c' := by
  unfold depoisDoAtivo
  split
  · exact mudo fun _ => trivial
  · exact pausar_ok ativo

/-- What one answer to `storageParaEscrita` leaves. -/
theorem passoDaEscrita_depois (ok : BancoOk decrypt b) (lida : ChamadaOk b c)
    (taken : passoDaEscrita decrypt b c resposta = some (b', seguinte)) :
    Depois decrypt b c resposta b' seguinte := by
  unfold passoDaEscrita at taken
  split at taken
  · split at taken
    all_goals
      cases taken
      exact depois_of_leitura ok trivial (mudo fun _ => trivial)
  · cases taken
    exact depois_of_leitura ok trivial (mudo fun _ => trivial)
  · split at taken
    · cases taken
      exact depois_of_leitura ok trivial (mudo fun _ => trivial)
    · cases taken
  · split at taken
    · rename_i achada
      cases taken
      obtain ⟨member, endereco⟩ := mem_noEndereco achada
      exact depois_of_leitura ok trivial (depoisDeAchar_ok ok member endereco)
    · cases taken
  · rename_i config existente gravou id cifrado agora
    split at taken
    · rename_i legivel
      cases taken
      have guardada : ∀ b'', (∀ p ∈ b.historico, p ∈ b''.historico) →
          ∀ c', devolver (comOperacao (materializar decrypt
            (dadosNovos decrypt config cifrado existente existente)) config) = some c' →
              ChamadaOk b'' c' := by
        intro b'' cresce
        exact devolver_ok rfl (cresce _ lida.2)
      cases gravou with
      | false => exact depois_of_leitura ok trivial (guardada b fun _ member => member)
      | true =>
        exact depois_of_tabela (dadosNovos_ok ok legivel) rfl rfl (fun _ member => member)
          trivial (guardada _ fun _ member => member)
    · cases taken
  · rename_i config existente
    cases taken
    refine depois_of_leitura ok trivial ?_
    intro c' same
    cases same
    cases existente with
    | none => trivial
    | some existente => exact lida
  · rename_i config existente primeiro id cifrado agora
    split at taken
    · rename_i legivel
      split at taken
      · rename_i existe
        cases taken
        exact registrar_depois ok agora existe legivel.2 legivel.1 lida _
      · rename_i sumiu
        cases taken
        refine depois_of_leitura ok ?_ calado
        cases primeiro with
        | false => trivial
        | true => exact fun existe => absurd existe sumiu
    · cases taken
  · rename_i config id
    cases taken
    refine depois_of_leitura ok trivial ?_
    cases achada : acharStorage b id with
    | none => exact calado
    | some linha => exact devolver_ok rfl (ok.enderecos linha (mem_of_acharStorage achada).1)
  · cases taken
    exact depois_of_leitura ok trivial (mudo fun _ => trivial)
  · cases taken
    exact depois_of_leitura ok trivial (mudo fun _ => trivial)
  · cases taken
    exact depois_of_leitura ok trivial (depoisDoAtivo_ok _ _)
  · cases taken
    exact depois_of_leitura ok trivial (depoisDoAtivo_ok _ _)
  · cases taken
    exact depois_of_tabela (desativar_ok ok) rfl rfl (fun _ member => member) trivial calado
  · cases taken
    exact depois_of_leitura ok trivial (mudo fun _ => trivial)
  · cases taken
    exact depois_of_leitura ok trivial (mudo fun _ => trivial)
  · rename_i ativo lapides
    split at taken
    · cases taken
      refine depois_of_leitura ok trivial (pausar_ok ativo)
    · rename_i candidato eleito
      have lido := ok.enderecos candidato (mem_maisRecentes (List.mem_of_find?_eq_some eleito))
      split at taken
      · cases taken
        exact depois_of_leitura ok trivial calado
      · rename_i resolvido aberto
        obtain ⟨id, endereco⟩ := materializar_eq aberto
        rw [← endereco] at lido
        split at taken
        · cases taken
          refine depois_of_leitura ok trivial ?_
          intro c' same
          cases same
          exact ⟨candidato.id, id, lido⟩
        · cases taken
          refine depois_of_leitura ok trivial ?_
          intro c' same
          cases same
          exact ⟨id, lido⟩
  · rename_i ativo lapides
    cases taken
    exact depois_of_leitura ok trivial (pausar_ok ativo)
  · rename_i candidato resolvido
    have devolvida : ∀ b'', (∀ p ∈ b.historico, p ∈ b''.historico) →
        ∀ c', some (Chamada.devolvida resolvido) = some c' → ChamadaOk b'' c' := by
      intro b'' cresce c' same
      cases same
      exact ⟨candidato.id, lida.1, cresce _ lida.2⟩
    split at taken
    · cases taken
      exact depois_of_tabela (ativar_ok ok candidato.id) rfl rfl (fun _ member => member) trivial
        (devolvida _ fun _ member => member)
    · cases taken
      exact depois_of_leitura ok trivial (devolvida b fun _ member => member)
  · rename_i candidato resolvido
    cases taken
    refine depois_of_leitura ok trivial ?_
    intro c' same
    cases same
    exact ⟨candidato.id, lida⟩
  · cases taken
    exact depois_of_leitura ok trivial calado
  · cases taken
    exact depois_of_leitura ok trivial calado
  · cases taken
    exact depois_of_leitura ok trivial calado
  · cases taken
    refine depois_of_leitura ok ?_ calado
    unfold AncoraCerta
    split <;> trivial
  all_goals cases taken
  all_goals exact depois_of_leitura ok trivial calado

theorem depois_of_gravacoes (ok : BancoOk decrypt b) (gravacoes : List Gravacao)
    (origem : ∀ g ∈ gravacoes, (g.row.cloudStorageId = none ∨ ∃ antes ∈ b.gravacoes,
      g.row.cloudStorageId = antes.row.cloudStorageId) ∧ (Viva g → g ∈ b.gravacoes))
    (livre : AncoraCerta b c resposta)
    (chamada : ∀ c', seguinte = some c' → ChamadaOk { b with gravacoes := gravacoes } c') :
    Depois decrypt b c resposta { b with gravacoes := gravacoes } seguinte := by
  refine ⟨?_, fun _ member => member, chamada, ?_⟩
  · apply gravacoes_ok ok
    intro g member id same
    rcases (origem g member).1 with solta | ⟨antes, inAntes, igual⟩
    · rw [solta] at same
      cases same
    · exact ok.chaves antes inAntes id (igual.symm.trans same)
  · intro aponta
    refine ⟨fun _ => livre, fun _ => ?_⟩
    exact tudoAponta_mono aponta (fun g member viva => (origem g member).2 viva) rfl
      fun _ member => member

theorem semNuvem_origem (id : Text) : ∀ g ∈ b.gravacoes.map (semNuvem id),
    (g.row.cloudStorageId = none ∨ ∃ antes ∈ b.gravacoes,
      g.row.cloudStorageId = antes.row.cloudStorageId) ∧ (Viva g → g ∈ b.gravacoes) := by
  intro g member
  obtain ⟨antes, inAntes, rfl⟩ := mem_map.mp member
  unfold semNuvem
  split
  · exact ⟨Or.inl rfl, fun viva => absurd viva.1 Bool.false_ne_true⟩
  · exact ⟨Or.inr ⟨antes, inAntes, rfl⟩, fun _ => inAntes⟩

theorem esvaziada_origem (id : Text) : ∀ g ∈ b.gravacoes.map (esvaziada id),
    (g.row.cloudStorageId = none ∨ ∃ antes ∈ b.gravacoes,
      g.row.cloudStorageId = antes.row.cloudStorageId) ∧ (Viva g → g ∈ b.gravacoes) := by
  intro g member
  obtain ⟨antes, inAntes, rfl⟩ := mem_map.mp member
  unfold esvaziada
  split
  · exact ⟨Or.inr ⟨antes, inAntes, rfl⟩, fun viva => absurd viva.1 Bool.false_ne_true⟩
  · exact ⟨Or.inr ⟨antes, inAntes, rfl⟩, fun _ => inAntes⟩

section

variable (ok : BancoOk decrypt b)

include ok

theorem apagarStorage_depois (linha : CloudStorage) (alvos : List Endereco) :
    Depois decrypt b (.apagando linha alvos) .seguir
      (apagarStorage b linha.id true) (some (.expurgando alvos)) := by
  refine ⟨apagarStorage_ok ok linha.id true, ?_, mudo fun _ => trivial, ?_⟩
  · rw [apagarStorage_historico]
    exact fun _ member => member
  · intro aponta
    exact ⟨fun _ => trivial, fun _ => (apagarStorage_aponta linha.id aponta).1⟩

theorem removerCadastro_depois (id : Text) :
    Depois decrypt b (.apagandoCadastro id) .seguir (apagarStorage b id false) none := by
  refine ⟨apagarStorage_ok ok id false, ?_, calado, ?_⟩
  · rw [apagarStorage_historico]
    exact fun _ member => member
  · intro aponta
    exact (apagarStorage_aponta id aponta).2

theorem passoDoExpurgo_depois (taken : passoDoExpurgo b c resposta = some (b', seguinte)) :
    Depois decrypt b c resposta b' seguinte := by
  unfold passoDoExpurgo at taken
  split at taken
  · cases taken
    refine depois_of_leitura ok ?_ calado
    trivial
  · split at taken
    · cases taken
      exact depois_of_leitura ok trivial (mudo fun _ => trivial)
    · split at taken
      all_goals
        split at taken
        · cases taken
          exact depois_of_leitura ok trivial (mudo fun _ => trivial)
        · cases taken
  · split at taken
    all_goals
      cases taken
      exact depois_of_leitura ok trivial (mudo fun _ => trivial)
  · cases taken
    exact depois_of_leitura ok trivial (mudo fun _ => trivial)
  · rename_i linha alvos
    cases taken
    refine depois_of_gravacoes ok _ ?_ trivial (mudo fun _ => trivial)
    intro g member
    have inAntes := mem_of_mem_filter member
    exact ⟨Or.inr ⟨g, inAntes, rfl⟩, fun _ => inAntes⟩
  · rename_i linha alvos
    cases taken
    exact depois_of_gravacoes ok _ (semNuvem_origem linha.id) trivial (mudo fun _ => trivial)
  · rename_i linha alvos
    cases taken
    exact apagarStorage_depois ok linha alvos
  all_goals cases taken
  all_goals exact depois_of_leitura ok trivial (mudo fun _ => trivial)

theorem passoDoCadastro_depois (taken : passoDoCadastro decrypt b c resposta = some (b', seguinte)) :
    Depois decrypt b c resposta b' seguinte := by
  unfold passoDoCadastro at taken
  split at taken
  · rename_i id forcar
    split at taken
    · rename_i linha achada
      cases taken
      refine depois_of_leitura ok trivial ?_
      split
      · exact calado
      · exact mudo fun _ => trivial
    · cases taken
      exact depois_of_leitura ok trivial calado
  · dsimp only at taken
    split at taken
    · cases taken
      exact depois_of_leitura ok trivial calado
    · cases taken
      exact depois_of_leitura ok trivial (mudo fun _ => trivial)
  · rename_i id
    cases taken
    exact removerCadastro_depois ok id
  · split at taken
    · cases taken
      refine depois_of_leitura ok trivial ?_
      split
      · exact calado
      · exact mudo fun _ => trivial
    · cases taken
      exact depois_of_leitura ok trivial calado
  · rename_i id
    cases taken
    exact depois_of_gravacoes ok _ (esvaziada_origem id) trivial calado
  all_goals cases taken
  all_goals exact depois_of_leitura ok trivial calado

/-- What one answer to any call leaves. -/
theorem avancar_depois (lida : ChamadaOk b c)
    (taken : avancar decrypt b c resposta = some (b', seguinte)) :
    Depois decrypt b c resposta b' seguinte := by
  unfold avancar at taken
  split at taken
  · rename_i escrita
    cases taken
    exact passoDaEscrita_depois ok lida escrita
  · split at taken
    · rename_i expurgo
      cases taken
      exact passoDoExpurgo_depois ok expurgo
    · exact passoDoCadastro_depois ok taken

end

end Passos

section Corridas

variable {decrypt : Text → Option Text} {s t : Sistema}

structure SistemaOk (decrypt : Text → Option Text) (s : Sistema) : Prop where
  banco : BancoOk decrypt s.banco
  chamadas : ∀ c ∈ s.chamadas, ChamadaOk s.banco c

/-- When a step leaves every recording with its origin: the Central provisions another address only
when no uploaded recording is without a storage id, and so on for the calls. -/
def Fiel (s : Sistema) : Passo → Prop
  | .provisionar config => ∀ g ∈ s.banco.gravacoes, Viva g → g.row.cloudStorageId = none →
      vale config g = true
  | .responder i resposta => ∀ c ∈ s.chamadas[i]?, AncoraCerta s.banco c resposta
  | _ => True

theorem provisionar_exato (ok : SistemaOk decrypt s) (config : Option CloudStorageConfig) :
    SistemaOk decrypt { s with banco := { s.banco with provisionado := config } } ∧
      (TudoAponta s.banco → (TudoAponta { s.banco with provisionado := config } ↔
        Fiel s (.provisionar config))) := by
  refine ⟨⟨?_, ?_⟩, ?_⟩
  · obtain ⟨novos, uuid, ids, enderecos, legiveis, ativo, chaves⟩ := ok.banco
    exact ⟨novos, uuid, ids, enderecos, legiveis, ativo, chaves⟩
  · intro c member
    exact (ok.chamadas c member).mono fun _ guardado => guardado
  · intro aponta
    constructor
    · intro depois g member viva semId
      have dela := depois g member viva
      rw [Aponta, semId] at dela
      exact dela
    · intro certa g member viva
      have antes := aponta g member viva
      unfold Aponta at antes ⊢
      cases storage : g.row.cloudStorageId with
      | none => exact certa g member viva storage
      | some id =>
        rw [storage] at antes
        exact antes

theorem responder_exato (ok : SistemaOk decrypt s) (i : Nat) (resposta : Resposta)
    (taken : passo decrypt s (.responder i resposta) = some t) : SistemaOk decrypt t ∧
      (TudoAponta s.banco → (TudoAponta t.banco ↔ Fiel s (.responder i resposta))) := by
  simp only [passo] at taken
  split at taken
  · rename_i c here
    obtain ⟨⟨b', seguinte⟩, avanca, rfl⟩ := Option.map_eq_some_iff.mp taken
    have depois := avancar_depois ok.banco (ok.chamadas c (List.mem_of_getElem? here)) avanca
    have antigas : ∀ c' ∈ s.chamadas, ChamadaOk b' c' := by
      intro c' member
      exact (ok.chamadas c' member).mono depois.cresce
    refine ⟨⟨depois.ok, ?_⟩, ?_⟩
    · intro c' member
      cases seguinte with
      | none => exact antigas c' (mem_of_mem_eraseIdx member)
      | some nova =>
        rcases mem_or_eq_of_mem_set member with antiga | rfl
        · exact antigas c' antiga
        · exact depois.chamada c' rfl
    · intro aponta
      rw [depois.aponta aponta]
      constructor
      · intro certa c' same
        rw [here] at same
        cases same
        exact certa
      · intro fiel
        exact fiel c here
  · cases taken

theorem enviar_exato (ok : SistemaOk decrypt s) {i : Nat} {destino : StorageResolvido}
    (here : s.chamadas[i]? = some (.devolvida destino)) (existe : StorageExiste s.banco destino.id)
    (gravacao chave : Text) (agora : Instant) : SistemaOk decrypt { s with banco := { s.banco with
        gravacoes := mudarGravacao s.banco.gravacoes gravacao (enviada destino chave agora) } } ∧
      (TudoAponta s.banco → TudoAponta { s.banco with
        gravacoes := mudarGravacao s.banco.gravacoes gravacao (enviada destino chave agora) }) := by
  obtain ⟨id, dele, guardado⟩ := ok.chamadas _ (List.mem_of_getElem? here)
  refine ⟨⟨?_, ok.chamadas⟩, ?_⟩
  · apply gravacoes_ok ok.banco
    intro g member
    obtain ⟨antes, inAntes, rfl⟩ := mem_map.mp member
    split
    · exact existe
    · exact ok.banco.chaves antes inAntes
  · intro aponta g member
    obtain ⟨antes, inAntes, rfl⟩ := mem_map.mp member
    split
    · intro _
      unfold Aponta enviada
      rw [dele]
      exact ⟨destino.endereco, rfl, guardado⟩
    · exact aponta antes inAntes

/-- What one step leaves of the invariants, and when it leaves every recording with its origin. -/
theorem passo_exato (ok : SistemaOk decrypt s) (a : Passo) (taken : passo decrypt s a = some t) :
    SistemaOk decrypt t ∧ (TudoAponta s.banco → (TudoAponta t.banco ↔ Fiel s a)) := by
  have livre : ∀ u : Sistema, (∀ a, Fiel s a = True → SistemaOk decrypt u →
      (TudoAponta s.banco → TudoAponta u.banco) → SistemaOk decrypt u ∧
        (TudoAponta s.banco → (TudoAponta u.banco ↔ Fiel s a))) := by
    intro u a semCondicao okU aponta
    rw [semCondicao]
    exact ⟨okU, fun antes => ⟨fun _ => trivial, fun _ => aponta antes⟩⟩
  cases a with
  | provisionar config =>
    cases taken
    exact provisionar_exato ok config
  | mudarEstado estado =>
    cases taken
    refine livre _ (.mudarEstado estado) rfl ?_ fun antes => antes
    obtain ⟨novos, uuid, ids, enderecos, legiveis, ativo, chaves⟩ := ok.banco
    exact ⟨⟨novos, uuid, ids, enderecos, legiveis, ativo, chaves⟩, ok.chamadas⟩
  | mudarRemocoes remocoes =>
    cases taken
    refine livre _ (.mudarRemocoes remocoes) rfl ?_ fun antes => antes
    obtain ⟨novos, uuid, ids, enderecos, legiveis, ativo, chaves⟩ := ok.banco
    exact ⟨⟨novos, uuid, ids, enderecos, legiveis, ativo, chaves⟩, ok.chamadas⟩
  | pedir pedido =>
    cases taken
    refine livre _ (.pedir pedido) rfl ?_ fun antes => antes
    refine ⟨ok.banco, ?_⟩
    intro c member
    rcases mem_append.mp member with antiga | nova
    · exact ok.chamadas c antiga
    · rw [mem_singleton.mp nova]
      cases pedido <;> trivial
  | responder i resposta => exact responder_exato ok i resposta taken
  | enviar i gravacao chave agora =>
    simp only [passo] at taken
    split at taken
    · rename_i destino here
      split at taken
      · rename_i existe
        cases taken
        obtain ⟨okU, aponta⟩ := enviar_exato ok here existe gravacao chave agora
        exact livre _ (.enviar i gravacao chave agora) rfl okU aponta
      · cases taken
    · cases taken
  | gravar row =>
    simp only [passo] at taken
    split at taken
    · rename_i nova
      cases taken
      refine livre _ (.gravar row) rfl ?_ ?_
      · refine ⟨?_, ok.chamadas⟩
        apply gravacoes_ok ok.banco
        intro g member
        rcases mem_append.mp member with antiga | dela
        · exact ok.banco.chaves g antiga
        · rw [mem_singleton.mp dela]
          intro id same
          exact absurd (nova.2.symm.trans same) nofun
      · intro antes g member viva
        rcases mem_append.mp member with antiga | dela
        · exact antes g antiga viva
        · rw [mem_singleton.mp dela] at viva
          have semChave := viva.1
          rw [nova.1] at semChave
          cases semChave
    · cases taken
  | excluir id =>
    cases taken
    refine livre _ (.excluir id) rfl ?_ ?_
    · refine ⟨?_, ok.chamadas⟩
      apply gravacoes_ok ok.banco
      intro g member
      exact ok.banco.chaves g (mem_of_mem_filter member)
    · intro antes g member viva
      exact antes g (mem_of_mem_filter member) viva

/-- The tables as an installation starts: no call under way, ids that are never used again, at most one
active storage, credentials that open, and every uploaded recording with its origin. -/
structure Inicio (decrypt : Text → Option Text) (s : Sistema) : Prop where
  banco : BancoOk decrypt s.banco
  origem : LeDaOrigem decrypt s.banco
  semChamadas : s.chamadas = []

theorem Inicio.sistema (inicio : Inicio decrypt s) : SistemaOk decrypt s := by
  refine ⟨inicio.banco, ?_⟩
  rw [inicio.semChamadas]
  nofun

/-- At most one storage is active after any run, and along the run every uploaded recording is read
from where it was uploaded exactly when each step was taken as `Fiel` asks. -/
theorem reads_follow_origin (inicio : Inicio decrypt s) (passos : List Passo)
    (chegou : run (passo decrypt) s passos = some t) : UmAtivo t.banco ∧
      ((∀ n u, run (passo decrypt) s (passos.take n) = some u → LeDaOrigem decrypt u.banco) ↔
        Allowed (passo decrypt) Fiel s passos) := by
  have exata : ∀ u a v, SistemaOk decrypt u → passo decrypt u a = some v → SistemaOk decrypt v ∧
      (LeDaOrigem decrypt u.banco → (LeDaOrigem decrypt v.banco ↔ Fiel u a)) := by
    intro u a v ok taken
    obtain ⟨depois, aponta⟩ := passo_exato ok a taken
    rw [leDaOrigem_iff ok.banco, leDaOrigem_iff depois.banco]
    exact ⟨depois, aponta⟩
  have preserva : Preserves (passo decrypt) (fun _ _ => True) (SistemaOk decrypt) :=
    fun u a v _ ok taken => (exata u a v ok taken).1
  have ok := run_invariant (passo decrypt) preserva s t passos (allowed_always _ s passos)
    inicio.sistema chegou
  exact ⟨umAtivo_of_ok ok.banco,
    prefixes_iff_allowed (passo decrypt) exata s t passos inicio.sistema inicio.origem chegou⟩

end Corridas

section Exemplos

def ancoraBem (b : Banco) : Chamada → Resposta → Bool
  | .registrando config existente true, .gravar true _ _ _ =>
    decide (alvoExiste b existente = true → ∀ g ∈ b.gravacoes, Viva g →
      g.row.cloudStorageId = none → g.origem = some config.endereco)
  | .apagandoCadastro id, .seguir =>
    decide (id ∈ b.storages.map CloudStorage.id → ∀ g ∈ b.gravacoes, Viva g →
      g.row.cloudStorageId = some id → vale b.provisionado g = true)
  | _, _ => true

theorem ancoraBem_iff (b : Banco) (c : Chamada) (resposta : Resposta) :
    ancoraBem b c resposta = true ↔ AncoraCerta b c resposta := by
  unfold ancoraBem AncoraCerta
  split
  · exact decide_eq_true_iff
  · exact decide_eq_true_iff
  · exact iff_of_true rfl trivial

instance (s : Sistema) : (a : Passo) → Decidable (Fiel s a)
  | .provisionar _ => inferInstanceAs (Decidable (∀ g ∈ s.banco.gravacoes, _ → _ → _ = true))
  | .responder i resposta => decidable_of_iff
      ((s.chamadas[i]?.all fun c => ancoraBem s.banco c resposta) = true) (by
        simp only [Option.all_eq_true, ancoraBem_iff]
        exact Iff.rfl)
  | .mudarEstado _ | .mudarRemocoes _ | .pedir _ | .enviar _ _ _ _ | .gravar _ | .excluir _ =>
    isTrue trivial

/-- The recording is read from the active storage, which is not where it was sent. -/
def LidaDoAtivo (decrypt : Text → Option Text) (b : Banco) (g : Gravacao) : Prop :=
  Viva g ∧ ∃ linha ∈ b.storages, linha.isActive = true ∧ g.origem ≠ some linha.endereco ∧
    (storageDaGravacao decrypt b g.row.cloudStorageId).map (fun destino => destino.endereco) =
      some linha.endereco

instance (decrypt : Text → Option Text) (b : Banco) (g : Gravacao) :
    Decidable (LidaDoAtivo decrypt b g) := inferInstanceAs (Decidable (_ ∧ _))

def abrir : Text → Option Text
  | 'x' :: secret => some secret
  | _ => none

def provedor (bucket : Char) : CloudStorageConfig where
  name := [bucket]
  uploadConcurrency := 6
  mode := .tier
  provider := ['s', '3']
  endereco := ⟨['h'], [bucket], []⟩
  region := ['r']
  accessKeyId := ['k']
  secretAccessKey := ['z']
  localWindowHours := 24
  forcePathStyle := true

def gravacao (id : Char) (chave : Option Text) : Recording where
  id := [id]
  cameraId := ['c']
  triggerMode := ['m']
  startedAt := 60
  endedAt := some 120
  filePath := [id, '.', 'x']
  sizeBytes := some 5
  cloudKey := chave
  cloudUploadedAt := none
  cloudStorageId := none
  localDeletedAt := none
  cloudMissingSince := none

/-- An installation whose provider is `a`, before the first registration. -/
def instalacao (gravacoes : List Gravacao) : Sistema where
  banco := {
    provisionado := some (provedor 'a')
    estado := .configured
    remocoes := []
    storages := []
    historico := []
    gravacoes := gravacoes }
  chamadas := []

def soLocal : Gravacao := ⟨gravacao 'l' none, none, false⟩

/-- Uploaded to `a` before the rows had a storage id. -/
def legada : Gravacao := ⟨gravacao 'v' (some ['k']), some ⟨['h'], ['a'], []⟩, false⟩

theorem instalacao_inicio : Inicio abrir (instalacao [soLocal, legada]) := by
  refine ⟨⟨nodup_nil, nofun, nodup_nil, nofun, nofun, nofun, by decide⟩, ?_, rfl⟩
  intro g member viva
  have duas : g = soLocal ∨ g = legada := by simpa [instalacao] using member
  rcases duas with rfl | rfl
  · exact absurd viva.1 Bool.false_ne_true
  · exact ⟨_, rfl, rfl⟩

/-- `storageParaEscrita` up to its answer, when it registers the provisioned address. -/
def cadastrar (id : Char) (agora : Instant) : List Passo :=
  [.pedir .storageParaEscrita, .responder 0 .seguir, .responder 0 (.achar none),
   .responder 0 .seguir, .responder 0 (.gravar true [id] ['x', 'z'] agora), .responder 0 .seguir]

/-- The provider changes before the first registration. -/
def trocaAntes : List Passo := .provisionar (some (provedor 'b')) :: cadastrar '1' 10

/-- The provider changes after an upload, and the operator removes the first one. -/
def removeDepois : List Passo :=
  cadastrar '1' 10 ++ [.enviar 0 ['l'] ['k'] 20, .responder 0 .seguir,
    .provisionar (some (provedor 'b'))] ++ cadastrar '2' 30 ++ [.responder 0 .seguir,
    .pedir (.remover ['1'] true), .responder 0 .seguir, .responder 0 .seguir, .responder 0 .seguir]

theorem other_provider_read : Inicio abrir (instalacao [soLocal, legada]) ∧
    (∃ t g, run (passo abrir) (instalacao [soLocal, legada]) trocaAntes = some t ∧
      g ∈ t.banco.gravacoes ∧ LidaDoAtivo abrir t.banco g) ∧
    ∃ t g, run (passo abrir) (instalacao [soLocal, legada]) removeDepois = some t ∧
      g ∈ t.banco.gravacoes ∧ LidaDoAtivo abrir t.banco g := by
  have antes : ((run (passo abrir) (instalacao [soLocal, legada]) trocaAntes).any fun t =>
      t.banco.gravacoes.any fun g => decide (LidaDoAtivo abrir t.banco g)) = true := by
    decide +kernel
  have depois : ((run (passo abrir) (instalacao [soLocal, legada]) removeDepois).any fun t =>
      t.banco.gravacoes.any fun g => decide (LidaDoAtivo abrir t.banco g)) = true := by
    decide +kernel
  simp only [Option.any_eq_true, any_eq_true, decide_eq_true_eq] at antes depois
  obtain ⟨t, chegou, g, member, lida⟩ := antes
  obtain ⟨u, chegouU, h, memberU, lidaU⟩ := depois
  exact ⟨instalacao_inicio, ⟨t, g, chegou, member, lida⟩, u, h, chegouU, memberU, lidaU⟩

/-- The provider changes after the first registration; the second is removed by the Central, the first
takes over again, and the purge follows. -/
def trocaEVolta : List Passo :=
  cadastrar '1' 10 ++ [.enviar 0 ['l'] ['k'] 20, .responder 0 .seguir,
    .provisionar (some (provedor 'b'))] ++ cadastrar '2' 30 ++ [.responder 0 .seguir,
    .provisionar none, .mudarEstado .absent, .mudarRemocoes [⟨['h'], ['b'], []⟩],
    .pedir .storageParaEscrita, .responder 0 .seguir, .responder 0 .seguir, .responder 0 .seguir,
    .responder 0 .seguir, .responder 0 .seguir, .responder 0 .seguir, .responder 0 .seguir,
    .pedir .expurgarStoragesRemovidos, .responder 0 (.achar (some ['2'])), .responder 0 .seguir,
    .responder 0 .seguir, .responder 0 .seguir, .responder 0 .seguir, .responder 0 .seguir]

theorem trocaEVolta_reads_origin : ∃ t,
    run (passo abrir) (instalacao [soLocal, legada]) trocaEVolta = some t ∧
      UmAtivo t.banco ∧ LeDaOrigem abrir t.banco := by
  have termina : (run (passo abrir) (instalacao [soLocal, legada]) trocaEVolta).isSome = true := by
    decide +kernel
  obtain ⟨t, chegou⟩ := Option.isSome_iff_exists.mp termina
  have fieis := allowedBy_allowed (passo abrir) Fiel (instalacao [soLocal, legada]) trocaEVolta
    (by decide +kernel)
  obtain ⟨umAtivo, sempre⟩ := reads_follow_origin instalacao_inicio trocaEVolta chegou
  refine ⟨t, chegou, umAtivo, sempre.mpr fieis trocaEVolta.length t ?_⟩
  exact chegou

end Exemplos

end DracVms.StorageResolver
