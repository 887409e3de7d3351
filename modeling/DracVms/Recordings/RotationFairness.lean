import DracVms.Library.KeyedList
import DracVms.Recordings.Rotation

namespace DracVms.Rotation

open List Json RoundRobin

def daCamera (cameraId : Text) (escolhidas : List Candidata) : List Candidata :=
  escolhidas.filter fun c => c.cameraId = cameraId

/-- A fair list of what to delete. -/
structure Justa (candidatas : List Candidata) (bytesNecessarios : ℚ) (ativas : List Text)
    (aApagar : List Candidata) : Prop where
  prefixo : ∀ cameraId, daCamera cameraId aApagar <+: filaDe candidatas cameraId
  pouca : ∀ antes c depois, aApagar = antes ++ c :: depois →
    ¬ Basta bytesNecessarios (total peso antes)
  bastante : Basta bytesNecessarios (total peso aApagar) ∨
    ∀ cameraId, daCamera cameraId aApagar = filaDe candidatas cameraId
  parelha : ∀ a b, (a ∈ ativas ↔ b ∈ ativas) →
    (daCamera a aApagar).length < (filaDe candidatas a).length →
      (daCamera b aApagar).length ≤ (daCamera a aApagar).length + 1
  /-- "Câmeras paradas só são tocadas se ainda faltar." -/
  paradas : ∀ antes c depois, aApagar = antes ++ c :: depois → c.cameraId ∉ ativas →
    ∀ ativa ∈ ativas, daCamera ativa antes = filaDe candidatas ativa

section Justica

variable (localeCompare : Text → Text → Int) (candidatas : List Candidata)
  (bytesNecessarios : ℚ) (ativas : List Text)

def escolhidas : List Candidata :=
  (planejarRotacao localeCompare candidatas bytesNecessarios ativas).aApagar

/-- The oldest recording of each camera that is recording. -/
def maisAntigas : List Candidata :=
  heads (((ordemDasCameras localeCompare candidatas ativas).filter (· ∈ ativas)).map
    (filaDe candidatas))

/-- No camera stands still, or the oldest recordings of the others are enough, or the others have no
more than these. -/
def AtivasBastam : Prop :=
  (∀ c ∈ candidatas, c.protegida = false → c.cameraId ∈ ativas) ∨
    Basta bytesNecessarios (total peso (maisAntigas localeCompare candidatas ativas)) ∨
    ∀ ativa ∈ ativas, (filaDe candidatas ativa).length ≤ 1

theorem escolhidas_eq : escolhidas localeCompare candidatas bytesNecessarios ativas =
    takeUntil peso (Basta bytesNecessarios) 0 (anel localeCompare candidatas ativas) := by
  by_cases nada : bytesNecessarios ≤ 0
  · rw [escolhidas, planejarRotacao, if_pos nada, takeUntil_enough]
    exact le_trans nada (Nat.cast_nonneg _)
  · rw [escolhidas, planejarRotacao, if_neg nada]
    exact rodadas_escolhidas bytesNecessarios _ _ 0

variable {candidatas ativas} in
theorem filaDe_camera {cameraId : Text} {c : Candidata} (inside : c ∈ filaDe candidatas cameraId) :
    c.cameraId = cameraId :=
  ((mem_filaDe candidatas cameraId c).mp inside).2.2

variable {localeCompare candidatas ativas} in
theorem filaDe_elsewhere {cameraId : Text}
    (none_ : cameraId ∉ ordemDasCameras localeCompare candidatas ativas) :
    filaDe candidatas cameraId = [] := by
  rw [eq_nil_iff_forall_not_mem]
  intro c inside
  exact none_ ((mem_ordemDasCameras localeCompare candidatas ativas cameraId).mpr
    ⟨c, (mem_filaDe candidatas cameraId c).mp inside⟩)

theorem ordem_nodup : (ordemDasCameras localeCompare candidatas ativas).Nodup :=
  (perm_insertionSort _ _).nodup_iff.mpr (KeyedList.eraseDups_nodup _)

theorem turns_daCamera (n : Nat) (cameraId : Text) :
    daCamera cameraId (turns n ((ordemDasCameras localeCompare candidatas ativas).map
      (filaDe candidatas))) = (filaDe candidatas cameraId).take n := by
  rw [daCamera, turns_filter n Candidata.cameraId _ (fun _ _ => filaDe_camera) cameraId _
    (ordem_nodup localeCompare candidatas ativas)]
  split
  · rfl
  · rename_i none_
    rw [filaDe_elsewhere none_, take_nil]

theorem anel_daCamera (cameraId : Text) :
    daCamera cameraId (anel localeCompare candidatas ativas) = filaDe candidatas cameraId := by
  rw [anel, order, turns_daCamera]
  by_cases known : cameraId ∈ ordemDasCameras localeCompare candidatas ativas
  · exact take_of_length_le (length_le_size _ _ (mem_map_of_mem known))
  · rw [filaDe_elsewhere known, take_nil]

theorem escolhidas_prefixo (cameraId : Text) :
    daCamera cameraId (escolhidas localeCompare candidatas bytesNecessarios ativas) <+:
      filaDe candidatas cameraId := by
  rw [escolhidas_eq, ← anel_daCamera localeCompare candidatas ativas cameraId]
  exact ( takeUntil_prefix peso _ _ 0).filter _

theorem escolhidas_parelha (a b : Text)
    (sobra : (daCamera a (escolhidas localeCompare candidatas bytesNecessarios ativas)).length <
      (filaDe candidatas a).length) :
    (daCamera b (escolhidas localeCompare candidatas bytesNecessarios ativas)).length ≤
      (daCamera a (escolhidas localeCompare candidatas bytesNecessarios ativas)).length + 1 := by
  rw [escolhidas_eq] at sobra ⊢
  obtain ⟨k, inteiras, parte⟩ := between_turns _ _ _
    ( takeUntil_prefix peso (Basta bytesNecessarios) (anel localeCompare candidatas ativas) 0)
  have least := (inteiras.filter fun c => decide (c.cameraId = a)).length_le
  have most := (parte.filter fun c => decide (c.cameraId = b)).length_le
  have turns_a := turns_daCamera localeCompare candidatas ativas k a
  have turns_b := turns_daCamera localeCompare candidatas ativas (k + 1) b
  unfold daCamera at turns_a turns_b sobra ⊢
  rw [turns_a, length_take] at least
  rw [turns_b, length_take] at most
  omega

theorem ordem_primeiro (cameras : List Text) : ∃ frente atras,
    cameras.insertionSort (fun a b => compararCameras localeCompare ativas a b ≤ 0) =
      frente ++ atras ∧ (∀ a ∈ frente, a ∈ ativas) ∧ ∀ a ∈ atras, a ∉ ativas := by
  induction cameras with
  | nil => exact ⟨[], [], rfl, nofun, nofun⟩
  | cons nova rest ih =>
    obtain ⟨frente, atras, same, ligadas, desligadas⟩ := ih
    rw [insertionSort_cons, same]
    by_cases ativa : nova ∈ ativas
    · refine ⟨_, atras, KeyedList.orderedInsert_ahead _ _ _ _ ?_, ?_, desligadas⟩
      · intro b inside
        simp [compararCameras, ativa, desligadas b inside]
      · intro a inside
        rcases (mem_orderedInsert _).mp inside with rfl | old
        · exact ativa
        · exact ligadas a old
    · refine ⟨frente, _, KeyedList.orderedInsert_behind _ _ _ _ ?_, ligadas, ?_⟩
      · intro a inside
        simp [compararCameras, ativa, ligadas a inside]
      · intro a inside
        rcases (mem_orderedInsert _).mp inside with rfl | old
        · exact ativa
        · exact desligadas a old

variable {ativas} in
theorem maisAntigas_daCamera {ativa : Text} (gravando : ativa ∈ ativas) :
    daCamera ativa (maisAntigas localeCompare candidatas ativas) =
      (filaDe candidatas ativa).take 1 := by
  rw [daCamera, maisAntigas, heads_filter Candidata.cameraId _ (fun _ _ => filaDe_camera) ativa _
    ((ordem_nodup localeCompare candidatas ativas).filter _)]
  split
  · rfl
  · rename_i none_
    have nowhere : ativa ∉ ordemDasCameras localeCompare candidatas ativas := fun known =>
      none_ (mem_filter.mpr ⟨known, decide_eq_true gravando⟩)
    rw [filaDe_elsewhere nowhere, take_nil]

variable {localeCompare candidatas ativas} in
theorem mem_heads_filas {cameras : List Text} {c : Candidata}
    (head : c ∈ heads (cameras.map (filaDe candidatas))) : c.cameraId ∈ cameras := by
  obtain ⟨fila, inFilas, first⟩ := mem_filterMap.mp head
  obtain ⟨cameraId, known, rfl⟩ := mem_map.mp inFilas
  rwa [filaDe_camera (List.mem_of_mem_head? first)]

variable {localeCompare candidatas ativas} in
theorem maisAntigas_ativa {c : Candidata}
    (antiga : c ∈ maisAntigas localeCompare candidatas ativas) : c.cameraId ∈ ativas :=
  of_decide_eq_true (mem_filter.mp (mem_heads_filas antiga)).2

theorem anel_begins : ∃ depois, anel localeCompare candidatas ativas =
    maisAntigas localeCompare candidatas ativas ++ depois ∧
      ((∃ c ∈ candidatas, c.protegida = false ∧ c.cameraId ∉ ativas) →
        ∃ parada resto, depois = parada :: resto ∧ parada.cameraId ∉ ativas) := by
  obtain ⟨frente, atras, same, ligadas, desligadas⟩ :
      ∃ frente atras, ordemDasCameras localeCompare candidatas ativas = frente ++ atras ∧ _ :=
    ordem_primeiro localeCompare ativas _
  obtain ⟨resto, whole⟩ := heads_prefix_order
    ((ordemDasCameras localeCompare candidatas ativas).map (filaDe candidatas))
  have front : (ordemDasCameras localeCompare candidatas ativas).filter (· ∈ ativas) = frente := by
    rw [same, filter_append, filter_eq_self.mpr fun a inside =>
      decide_eq_true (ligadas a inside), filter_eq_nil_iff.mpr fun a inside => by
        simpa using desligadas a inside, append_nil]
  refine ⟨heads (atras.map (filaDe candidatas)) ++ resto, ?_, ?_⟩
  · rw [anel, ← whole, maisAntigas, front, same, map_append, heads, filterMap_append, append_assoc]
    rfl
  · rintro ⟨c, candidata, livre, desligada⟩
    have known := (mem_ordemDasCameras localeCompare candidatas ativas c.cameraId).mpr
      ⟨c, candidata, livre, rfl⟩
    rw [same] at known
    have atrasada := (mem_append.mp known).resolve_left fun inside =>
      desligada (ligadas _ inside)
    cases some_ : heads (atras.map (filaDe candidatas)) with
    | nil =>
      have inFila := (mem_filaDe candidatas c.cameraId c).mpr ⟨candidata, livre, rfl⟩
      rw [heads_nil_of_empty _ some_ _ (mem_map_of_mem atrasada)] at inFila
      cases inFila
    | cons parada outras =>
      have head : parada ∈ heads (atras.map (filaDe candidatas)) := by
        rw [some_]
        exact mem_cons_self
      exact ⟨parada, outras ++ resto, rfl, desligadas _ (mem_heads_filas head)⟩

variable {localeCompare candidatas bytesNecessarios ativas} in
theorem paradas_of_bastam (bastam : AtivasBastam localeCompare candidatas bytesNecessarios ativas)
    {antes depois : List Candidata} {c : Candidata}
    (split : escolhidas localeCompare candidatas bytesNecessarios ativas = antes ++ c :: depois)
    (desligada : c.cameraId ∉ ativas) (ativa : Text) (gravando : ativa ∈ ativas) :
    daCamera ativa antes = filaDe candidatas ativa := by
  have chosen : c ∈ escolhidas localeCompare candidatas bytesNecessarios ativas := by
    rw [split]
    exact mem_append_right _ mem_cons_self
  obtain ⟨resto, whole, -⟩ := anel_begins localeCompare candidatas ativas
  have all := escolhidas_eq localeCompare candidatas bytesNecessarios ativas
  rw [whole] at all
  by_cases chega : Basta bytesNecessarios (total peso (maisAntigas localeCompare candidatas ativas))
  · rw [takeUntil_append_enough _ _ _ _ _ (by rwa [Nat.zero_add])] at all
    rw [all] at chosen
    exact absurd (maisAntigas_ativa (( takeUntil_prefix _ _ _ 0).subset chosen)) desligada
  · rcases bastam with nenhuma | basta | curtas
    · obtain ⟨candidata, livre⟩ :=
        ((mem_aApagar_iff localeCompare _ _ _ c).mp chosen).livre
      exact absurd (nenhuma c candidata livre) desligada
    · exact absurd basta chega
    · rw [takeUntil_append _ _ (Basta.mono bytesNecessarios) _ _ _ (by rwa [Nat.zero_add]),
        split] at all
      have early : maisAntigas localeCompare candidatas ativas <+: antes := by
        rcases append_eq_append_iff.mp all with ⟨meio, same, behind⟩ | ⟨meio, same, -⟩
        · cases meio with
          | nil => rw [same, append_nil]
          | cons d meio =>
            obtain ⟨rfl, -⟩ := List.cons.inj behind
            have antiga : c ∈ maisAntigas localeCompare candidatas ativas := by
              rw [same]
              exact mem_append_right _ mem_cons_self
            exact absurd (maisAntigas_ativa antiga) desligada
        · exact ⟨meio, same.symm⟩
      have first := maisAntigas_daCamera localeCompare candidatas gravando
      rw [take_of_length_le (curtas ativa gravando)] at first
      have least := early.filter fun d => decide (d.cameraId = ativa)
      have part := (prefix_append antes (c :: depois)).filter fun d => decide (d.cameraId = ativa)
      rw [← split] at part
      exact (part.trans (escolhidas_prefixo _ _ _ _ ativa)).eq_of_length_le (first ▸ least.length_le)

/-- The rotation is fair exactly when no camera that stands still pays for one that is recording. -/
theorem justa_iff : Justa candidatas bytesNecessarios ativas
        (planejarRotacao localeCompare candidatas bytesNecessarios ativas).aApagar ↔
      AtivasBastam localeCompare candidatas bytesNecessarios ativas := by
  constructor
  · intro justa
    by_cases nenhuma : ∀ c ∈ candidatas, c.protegida = false → c.cameraId ∈ ativas
    · exact Or.inl nenhuma
    · right
      by_cases chega : Basta bytesNecessarios
          (total peso (maisAntigas localeCompare candidatas ativas))
      · exact Or.inl chega
      · right
        push Not at nenhuma
        obtain ⟨resto, whole, behind⟩ := anel_begins localeCompare candidatas ativas
        obtain ⟨parada, outras, rfl, desligada⟩ := behind nenhuma
        intro ativa gravando
        have split := escolhidas_eq localeCompare candidatas bytesNecessarios ativas
        rw [whole, takeUntil_append _ _ (Basta.mono bytesNecessarios) _ _ _
          (by rwa [Nat.zero_add]), takeUntil, if_neg (by rwa [Nat.zero_add])] at split
        rw [← justa.paradas _ _ _ split desligada ativa gravando, maisAntigas_daCamera _ _ gravando,
          length_take]
        exact Nat.min_le_left _ _
  · intro bastam
    refine ⟨escolhidas_prefixo _ _ _ _, ?_, ?_, fun a b _ => escolhidas_parelha _ _ _ _ a b,
      fun _ _ _ split => paradas_of_bastam bastam split⟩
    · intro antes c depois split
      have chosen := (escolhidas_eq _ _ _ _).symm.trans split
      simpa using takeUntil_missing peso (Basta bytesNecessarios) _ 0 chosen
    · have ends := takeUntil_ends peso (Basta bytesNecessarios)
        (anel localeCompare candidatas ativas) 0
      rw [← escolhidas_eq, Nat.zero_add] at ends
      refine ends.imp id fun whole cameraId => ?_
      rw [← anel_daCamera localeCompare candidatas ativas, ← whole]
      rfl

end Justica

/-- The camera that stands still loses its only recording, and the one that is recording keeps
one. -/
theorem parada_pays : ¬ Justa
    [⟨['a'], ['V'], 0, some 10, false⟩, ⟨['b'], ['V'], 60000, some 10, false⟩,
      ⟨['c'], ['P'], 0, some 10, false⟩] 20 [['V']]
    (planejarRotacao (fun _ _ => 0)
      [⟨['a'], ['V'], 0, some 10, false⟩, ⟨['b'], ['V'], 60000, some 10, false⟩,
        ⟨['c'], ['P'], 0, some 10, false⟩] 20 [['V']]).aApagar := by
  intro justa
  have served := justa.paradas [⟨['a'], ['V'], 0, some 10, false⟩] ⟨['c'], ['P'], 0, some 10, false⟩
    [] (by decide +kernel) (by decide) ['V'] mem_cons_self
  revert served
  decide +kernel

end DracVms.Rotation
