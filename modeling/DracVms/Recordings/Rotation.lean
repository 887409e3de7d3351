import DracVms.Library.RoundRobin
import DracVms.Recordings.Protection

namespace DracVms.Rotation

open Json Database Protection RoundRobin
open List hiding tails

structure Candidata where
  id : Text
  cameraId : Text
  startedAt : Instant
  sizeBytes : Option Int
  protegida : Bool
  deriving DecidableEq

def bytesDe (valor : Option Int) : Nat := valor.elim 0 Int.toNat

/-- Enough bytes are gathered. -/
def Basta (bytesNecessarios : ℚ) (bytes : Nat) : Prop := bytesNecessarios ≤ bytes

instance (bytesNecessarios : ℚ) : DecidablePred (Basta bytesNecessarios) :=
  fun bytes => inferInstanceAs (Decidable (bytesNecessarios ≤ (bytes : ℚ)))

theorem Basta.mono (bytesNecessarios : ℚ) (a b : Nat) (le : a ≤ b) (basta : Basta bytesNecessarios a) :
    Basta bytesNecessarios b :=
  le_trans basta (Nat.mono_cast le)

structure Plano where
  aApagar : List Candidata
  bytesEstimados : Nat
  camerasSemFolga : List Text

section Planejar

variable (localeCompare : Text → Text → Int)

/-- The recordings of one camera that may go, the oldest first. -/
def filaDe (candidatas : List Candidata) (cameraId : Text) : List Candidata :=
  (candidatas.filter fun item => !item.protegida && decide (item.cameraId = cameraId)).insertionSort
    fun a b => a.startedAt ≤ b.startedAt

/-- Cameras that are recording come first, and then by name. -/
def compararCameras (ativas : List Text) (a b : Text) : Int :=
  let pa := if a ∈ ativas then 0 else 1
  let pb := if b ∈ ativas then 0 else 1
  if pa ≠ pb then pa - pb else localeCompare a b

def ordemDasCameras (candidatas : List Candidata) (ativas : List Text) : List Text :=
  (((candidatas.filter fun item => !item.protegida).map Candidata.cameraId).eraseDups).insertionSort
    fun a b => compararCameras localeCompare ativas a b ≤ 0

/-- One pass of the `for`: the queues it leaves, what it took, and the bytes so far. -/
def rodada (bytesNecessarios : ℚ) :
    List (List Candidata) → Nat → List (List Candidata) × List Candidata × Nat
  | [], bytes => ([], [], bytes)
  | fila :: filas, bytes =>
    if Basta bytesNecessarios bytes then (fila :: filas, [], bytes)
    else
      match fila with
      | [] =>
        let (restantes, escolhidas, total) := rodada bytesNecessarios filas bytes
        ([] :: restantes, escolhidas, total)
      | escolhida :: resto =>
        let (restantes, escolhidas, total) :=
          rodada bytesNecessarios filas (bytes + bytesDe escolhida.sizeBytes)
        (resto :: restantes, escolhida :: escolhidas, total)

/-- The `while`: it ends with enough bytes, or after a pass that took nothing. -/
def rodadas (bytesNecessarios : ℚ) :
    Nat → List (List Candidata) → Nat → List (List Candidata) × List Candidata × Nat
  | 0, filas, bytes => (filas, [], bytes)
  | n + 1, filas, bytes =>
    if Basta bytesNecessarios bytes then (filas, [], bytes)
    else
      let (restantes, escolhidas, total) := rodada bytesNecessarios filas bytes
      if escolhidas = [] then (restantes, [], total)
      else
        let (sobra, demais, soma) := rodadas bytesNecessarios n restantes total
        (sobra, escolhidas ++ demais, soma)

def planejarRotacao (candidatas : List Candidata) (bytesNecessarios : ℚ)
    (camerasAtivas : List Text) : Plano :=
  if bytesNecessarios ≤ 0 then ⟨[], 0, []⟩
  else
    let ordem := ordemDasCameras localeCompare candidatas camerasAtivas
    let filas := ordem.map (filaDe candidatas)
    let (restantes, aApagar, bytesEstimados) :=
      rodadas bytesNecessarios (size filas) filas 0
    let temFila := fun id => (ordem.zip restantes).any fun entry =>
      decide (entry.1 = id) && !entry.2.isEmpty
    { aApagar := aApagar
      bytesEstimados := bytesEstimados
      camerasSemFolga := camerasAtivas.filter fun id =>
        !temFila id && !aApagar.any fun r => decide (r.cameraId = id) }

/-- The ring: what may go, in the order in which it would go if nothing were enough. -/
def anel (candidatas : List Candidata) (camerasAtivas : List Text) : List Candidata :=
  order ((ordemDasCameras localeCompare candidatas camerasAtivas).map (filaDe candidatas))

end Planejar

def peso (c : Candidata) : Nat := bytesDe c.sizeBytes

section

variable (bytesNecessarios : ℚ) (filas : List (List Candidata)) (bytes : Nat)

theorem rodada_escolhidas : (rodada bytesNecessarios filas bytes).2.1 =
      takeUntil peso (Basta bytesNecessarios) bytes (heads filas) := by
  induction filas generalizing bytes with
  | nil => rfl
  | cons fila filas ih =>
    by_cases basta : Basta bytesNecessarios bytes
    · rw [takeUntil_enough _ _ _ _ basta]
      cases fila <;> rw [rodada, if_pos basta]
    · cases fila with
      | nil =>
        rw [rodada, if_neg basta]
        exact ih bytes
      | cons escolhida resto =>
        rw [rodada, if_neg basta]
        show escolhida :: (rodada bytesNecessarios filas (bytes + peso escolhida)).2.1 = _
        rw [ih, heads_cons, takeUntil, if_neg basta]

/-- A pass that does not end with enough has gone through all the queues. -/
theorem rodada_completa (falta : ¬ Basta bytesNecessarios (bytes + total peso (heads filas))) :
    rodada bytesNecessarios filas bytes =
      (tails filas, heads filas, bytes + total peso (heads filas)) := by
  induction filas generalizing bytes with
  | nil => rfl
  | cons fila filas ih =>
    have antes : ¬ Basta bytesNecessarios bytes := by
      intro basta
      exact falta (Basta.mono _ _ _ (by omega) basta)
    cases fila with
    | nil =>
      rw [rodada, if_neg antes, ih bytes falta]
      rfl
    | cons escolhida resto =>
      have soma : bytes + total peso (heads ((escolhida :: resto) :: filas)) =
          bytes + peso escolhida + total peso (heads filas) := by
        rw [heads_cons, total_cons, ← Nat.add_assoc]
      rw [soma] at falta ⊢
      rw [rodada, if_neg antes]
      show (resto :: (rodada bytesNecessarios filas (bytes + peso escolhida)).1,
        escolhida :: (rodada bytesNecessarios filas (bytes + peso escolhida)).2.1,
        (rodada bytesNecessarios filas (bytes + peso escolhida)).2.2) = _
      rw [ih _ falta]
      rfl

theorem rodada_bytes (basta : Basta bytesNecessarios (bytes + total peso (heads filas))) :
    Basta bytesNecessarios (rodada bytesNecessarios filas bytes).2.2 := by
  induction filas generalizing bytes with
  | nil => exact basta
  | cons fila filas ih =>
    by_cases antes : Basta bytesNecessarios bytes
    · cases fila <;> rw [rodada, if_pos antes] <;> exact antes
    · cases fila with
      | nil =>
        rw [rodada, if_neg antes]
        exact ih bytes basta
      | cons escolhida resto =>
        rw [rodada, if_neg antes]
        apply ih
        rw [heads_cons, total_cons, ← Nat.add_assoc] at basta
        exact basta

end

/-- The loop takes the ring from its start until it has enough. -/
theorem rodadas_escolhidas (bytesNecessarios : ℚ) (n : Nat) (filas : List (List Candidata))
    (bytes : Nat) : (rodadas bytesNecessarios n filas bytes).2.1 =
      takeUntil peso (Basta bytesNecessarios) bytes (turns n filas) := by
  induction n generalizing filas bytes with
  | zero => rfl
  | succ n ih =>
    by_cases antes : Basta bytesNecessarios bytes
    · rw [rodadas, if_pos antes, takeUntil_enough _ _ _ _ antes]
    · have passe := rodada_escolhidas bytesNecessarios filas bytes
      rw [rodadas, if_neg antes, turns]
      by_cases nada : (rodada bytesNecessarios filas bytes).2.1 = []
      · have semCabeca : heads filas = [] := by
          cases cabecas : heads filas with
          | nil => rfl
          | cons x rest =>
            rw [passe, cabecas, takeUntil, if_neg antes] at nada
            cases nada
        have vazias := heads_nil_of_empty filas semCabeca
        have semResto : ∀ fila ∈ tails filas, fila = [] := by
          intro fila member
          obtain ⟨inteira, inFilas, rfl⟩ := mem_map.mp member
          rw [vazias inteira inFilas, tail_nil]
        simp only [nada, if_true, semCabeca, turns_empty n _ semResto, nil_append]
        rfl
      · simp only [nada, if_false]
        by_cases basta : Basta bytesNecessarios (bytes + total peso (heads filas))
        · have chega := rodada_bytes bytesNecessarios filas bytes basta
          rw [ih, takeUntil_enough _ _ _ _ chega, append_nil, passe,
            takeUntil_append_enough _ _ _ _ _ basta]
        · rw [rodada_completa bytesNecessarios filas bytes basta,
            takeUntil_append _ _ (Basta.mono bytesNecessarios) _ _ _ basta]
          rw [ih]

section Plano

variable (localeCompare : Text → Text → Int) (candidatas : List Candidata)

theorem mem_filaDe (cameraId : Text) (c : Candidata) :
    c ∈ filaDe candidatas cameraId ↔ c ∈ candidatas ∧ c.protegida = false ∧ c.cameraId = cameraId := by
  rw [filaDe, (perm_insertionSort _ _).mem_iff, mem_filter, Bool.and_eq_true,
    Bool.not_eq_true', decide_eq_true_eq]

theorem mem_ordemDasCameras (ativas : List Text) (cameraId : Text) :
    cameraId ∈ ordemDasCameras localeCompare candidatas ativas ↔
      ∃ c ∈ candidatas, c.protegida = false ∧ c.cameraId = cameraId := by
  simp only [ordemDasCameras, (perm_insertionSort _ _).mem_iff, mem_eraseDups,
    mem_map, mem_filter, Bool.not_eq_true', and_assoc]

/-- The ring holds the candidates that are not protected. -/
theorem mem_anel_iff (ativas : List Text) (c : Candidata) :
    c ∈ anel localeCompare candidatas ativas ↔ c ∈ candidatas ∧ c.protegida = false := by
  rw [anel, mem_order_iff]
  constructor
  · rintro ⟨fila, inFilas, member⟩
    obtain ⟨cameraId, -, rfl⟩ := mem_map.mp inFilas
    obtain ⟨candidata, livre, -⟩ := (mem_filaDe candidatas cameraId c).mp member
    exact ⟨candidata, livre⟩
  · rintro ⟨candidata, livre⟩
    refine ⟨filaDe candidatas c.cameraId, mem_map_of_mem ?_, ?_⟩
    · exact (mem_ordemDasCameras localeCompare candidatas ativas c.cameraId).mpr
        ⟨c, candidata, livre, rfl⟩
    · exact (mem_filaDe candidatas c.cameraId c).mpr ⟨candidata, livre, rfl⟩

/-- The ring comes to the recording before it has gathered what is missing. -/
def Alcancada (candidatas : List Candidata) (bytesNecessarios : ℚ) (ativas : List Text)
    (c : Candidata) : Prop :=
  ∃ antes depois, anel localeCompare candidatas ativas = antes ++ c :: depois ∧
    ¬ Basta bytesNecessarios (total peso antes)

theorem Alcancada.livre {candidatas : List Candidata} {bytesNecessarios : ℚ} {ativas : List Text}
    {c : Candidata} (alcancada : Alcancada localeCompare candidatas bytesNecessarios ativas c) :
    c ∈ candidatas ∧ c.protegida = false := by
  obtain ⟨antes, depois, split, -⟩ := alcancada
  apply (mem_anel_iff localeCompare candidatas ativas c).mp
  rw [split]
  exact mem_append_right _ mem_cons_self

/-- What the plan deletes. -/
theorem mem_aApagar_iff (bytesNecessarios : ℚ) (ativas : List Text) (c : Candidata) :
    c ∈ (planejarRotacao localeCompare candidatas bytesNecessarios ativas).aApagar ↔
      Alcancada localeCompare candidatas bytesNecessarios ativas c := by
  by_cases nada : bytesNecessarios ≤ 0
  · rw [planejarRotacao, if_pos nada]
    constructor
    · intro member
      cases member
    · rintro ⟨antes, depois, -, falta⟩
      exact absurd (le_trans nada (Nat.cast_nonneg _)) falta
  · rw [planejarRotacao, if_neg nada]
    show c ∈ (rodadas bytesNecessarios _ _ 0).2.1 ↔ _
    rw [rodadas_escolhidas, mem_takeUntil_iff _ _ (Basta.mono bytesNecessarios)]
    simp only [Nat.zero_add]
    rfl

end Plano

section Rotacionar

variable (localeCompare : Text → Text → Int) (minFreeBytes : ℚ)

def alvo : ℚ := max (minFreeBytes * (5 / 4)) (512 * 1024 * 1024)

def faltam (freeBytes : Nat) : ℚ := max 0 (alvo minFreeBytes - freeBytes)

/-- The ids in the `recordingId` column of the items: all that the rotation spares. -/
def nomeadas (items : List InvestigationItem) : List Text :=
  items.flatMap fun item => presente item.recordingId

/-- `.catch(() => [])`: a failed query protects nothing. -/
def protegidas (db : Tables) (respondeu : Bool) : List Text :=
  if respondeu then nomeadas db.investigationItems else []

/-- The oldest closed recordings that still have a local file. -/
def candidatas (db : Tables) : List Recording :=
  (byStart (db.recordings.filter fun row => row.localDeletedAt.isNone && row.endedAt.isSome)).take
    5000

def candidataDe (protegidas : List Text) (row : Recording) : Candidata where
  id := row.id
  cameraId := row.cameraId
  startedAt := row.startedAt
  sizeBytes := row.sizeBytes
  protegida := decide (row.id ∈ protegidas)

def candidatasMarcadas (db : Tables) (respondeu : Bool) : List Candidata :=
  (candidatas db).map (candidataDe (protegidas db respondeu))

/-- The plan of one rotation. -/
def planoDaRotacao (db : Tables) (respondeu : Bool) (camerasAtivas : List Text)
    (freeBytes : Nat) : Plano :=
  if faltam minFreeBytes freeBytes ≤ 0 then ⟨[], 0, []⟩
  else planejarRotacao localeCompare (candidatasMarcadas db respondeu) (faltam minFreeBytes freeBytes)
    camerasAtivas

theorem mem_planoDaRotacao_iff (db : Tables) (respondeu : Bool) (camerasAtivas : List Text)
    (freeBytes : Nat) (c : Candidata) :
    c ∈ (planoDaRotacao localeCompare minFreeBytes db respondeu camerasAtivas freeBytes).aApagar ↔
      Alcancada localeCompare (candidatasMarcadas db respondeu) (faltam minFreeBytes freeBytes)
        camerasAtivas c := by
  unfold planoDaRotacao
  split
  · rename_i nada
    rw [← mem_aApagar_iff, planejarRotacao, if_pos nada]
  · exact mem_aApagar_iff localeCompare _ _ _ c

/-- The rotation spares what the retention protects exactly when every protected candidate is named
by an item that the query returned, or comes too late in the ring. -/
theorem rotacao_spares_protected_iff (db : Tables) (respondeu : Bool) (camerasAtivas : List Text)
    (freeBytes : Nat) :
    (∀ c ∈ (planoDaRotacao localeCompare minFreeBytes db respondeu camerasAtivas freeBytes).aApagar,
        c.id ∉ (getProtectionSets db).recordingIds) ↔
      ∀ row ∈ candidatas db, row.id ∈ (getProtectionSets db).recordingIds →
        (respondeu = true ∧ row.id ∈ nomeadas db.investigationItems) ∨
          ¬ Alcancada localeCompare (candidatasMarcadas db respondeu)
            (faltam minFreeBytes freeBytes) camerasAtivas
            (candidataDe (protegidas db respondeu) row) := by
  constructor
  · intro poupa row member protegida
    right
    intro alcancada
    exact poupa _ ((mem_planoDaRotacao_iff localeCompare minFreeBytes db respondeu camerasAtivas
      freeBytes _).mpr alcancada) protegida
  · intro condicao c escolhida protegida
    have alcancada := (mem_planoDaRotacao_iff localeCompare minFreeBytes db respondeu camerasAtivas
      freeBytes c).mp escolhida
    obtain ⟨marcada, livre⟩ := alcancada.livre
    obtain ⟨row, member, rfl⟩ := mem_map.mp marcada
    rcases condicao row member protegida with ⟨respondida, nomeada⟩ | tarde
    · have semNome : row.id ∉ protegidas db respondeu := of_decide_eq_false livre
      rw [protegidas, if_pos respondida] at semNome
      exact semNome nomeada
    · exact tarde alcancada

end Rotacionar

def gravacaoRetida : Recording where
  id := ['r']
  cameraId := ['c']
  triggerMode := "continuous".toList
  startedAt := 0
  endedAt := some 60000
  filePath := "c/r.mp4".toList
  sizeBytes := some 1048576
  cloudKey := none
  cloudUploadedAt := none
  cloudStorageId := none
  localDeletedAt := none
  cloudMissingSince := none

/-- A legal hold lists the recording in its metadata, and no item names it. -/
def retencaoLegal : Tables where
  recordings := [gravacaoRetida]
  investigationItems := [{
    investigationId := ['i'], type := legalHold, recordingId := none, eventId := none
    metadata := some (.object [("enabled".toList, .atom (.bool true)),
      ("recordingIds".toList, .array [.atom (.string ['r'])])])
    createdAt := 90000 }]
  exportedClips := []

/-- With 1 GiB free and 2 GiB required, the rotation deletes the recording under legal hold. -/
theorem rotacao_deletes_held : ∃ c ∈ (planoDaRotacao (fun _ _ => 0) 2147483648 retencaoLegal true
    [['c']] 1073741824).aApagar, c.id ∈ (getProtectionSets retencaoLegal).recordingIds := by
  decide +kernel

end DracVms.Rotation
