import DracVms.Recordings.Rotation

namespace DracVms.DiskGuard

open List Json Database Protection RoundRobin Rotation

/-- What `getStorageUsage` reads. -/
structure StorageUsage where
  totalBytes : Nat
  freeBytes : Nat
  freePercent : ℚ
  usedPercent : ℚ

def getStorageUsage (blocks bavail bsize : Nat) : StorageUsage :=
  let totalBytes := blocks * bsize
  let freeBytes := bavail * bsize
  let freePercent : ℚ := if 0 < totalBytes then (freeBytes : ℚ) / totalBytes * 100 else 0
  { totalBytes := totalBytes
    freeBytes := freeBytes
    freePercent := freePercent
    usedPercent := if 0 < totalBytes then 100 - freePercent else 100 }

structure Limiares where
  minFreeBytes : ℚ
  minFreePercent : ℚ
  maxUsedPercent : ℚ

def critical (limiares : Limiares) (uso : StorageUsage) : Bool :=
  decide ((uso.freeBytes : ℚ) < limiares.minFreeBytes) ||
    decide (uso.freePercent < limiares.minFreePercent) ||
    decide (limiares.maxUsedPercent ≤ uso.usedPercent)

/-- What the guard does, in the order in which it does it. -/
inductive Efeito where
  | retoma
  | apagada (id : Text) (tamanho : Nat)
  | suspensa (cameraId : Text)
  deriving DecidableEq

/-- How the disk and the database answer during one check: `remover` gives the bytes that the
removal of a recording frees, and nothing when it fails; `depois` is the reading after it. -/
structure Respostas where
  protegidasOk : Bool
  candidatasOk : Bool
  remover : Recording → Option Nat
  depois : Option StorageUsage

structure Guarda where
  controlModeLocal : Bool
  active : List Text
  temSuspensas : Bool

section Guardar

variable (localeCompare : Text → Text → Int) (limiares : Limiares)

/-- The recordings that the rotation removes, with the bytes that each of them frees. -/
def rotacionarParaLiberarEspaco (db : Tables) (respostas : Respostas) (camerasAtivas : List Text)
    (freeBytes : Nat) : List (Text × Nat) :=
  if respostas.candidatasOk then
    (planoDaRotacao localeCompare limiares.minFreeBytes db respostas.protegidasOk camerasAtivas
      freeBytes).aApagar.filterMap fun alvoDaVez =>
        ((candidatas db).find? fun c => c.id = alvoDaVez.id).bind fun original =>
          (respostas.remover original).map fun tamanho => (original.id, tamanho)
  else []

def liberados (apagadas : List (Text × Nat)) : Nat := total Prod.snd apagadas

def enforceDiskGuard (db : Tables) (respostas : Respostas) (guarda : Guarda)
    (uso : StorageUsage) : List Efeito :=
  if guarda.controlModeLocal then
    if guarda.active = [] ∧ !guarda.temSuspensas then []
    else if critical limiares uso then
      if guarda.active = [] then []
      else
        let apagadas := rotacionarParaLiberarEspaco localeCompare limiares db respostas
          guarda.active uso.freeBytes
        let limpeza := apagadas.map fun apagada => Efeito.apagada apagada.1 apagada.2
        let suspensoes := guarda.active.map Efeito.suspensa
        if 0 < liberados apagadas then
          match respostas.depois with
          | some depois => if critical limiares depois then limpeza ++ suspensoes else limpeza
          | none => limpeza
        else limpeza ++ suspensoes
    else [.retoma]
  else []

/-- A recording is freed before any camera is suspended. -/
def LiberaAntes (efeitos : List Efeito) : Prop :=
  ∃ antes id tamanho depois, efeitos = antes ++ .apagada id tamanho :: depois ∧
    ∀ cameraId, .suspensa cameraId ∉ antes

/-- The guard acts on a critical disk, and something could be freed. -/
structure Premissa (db : Tables) (guarda : Guarda) (uso : StorageUsage) : Prop where
  controlModeLocal : guarda.controlModeLocal = true
  gravando : guarda.active ≠ []
  critico : critical limiares uso = true
  livre : ∃ row ∈ db.recordings, row.endedAt.isSome = true ∧ row.localDeletedAt = none ∧
    (∃ size, row.sizeBytes = some size ∧ 0 < size) ∧ row.id ∉ (getProtectionSets db).recordingIds

/-- The query answers, and one of the recordings that the ring reaches can be removed. -/
def PodeLiberar (db : Tables) (respostas : Respostas) (guarda : Guarda) (uso : StorageUsage) : Prop :=
  respostas.candidatasOk = true ∧ ∃ c original,
    Alcancada localeCompare (candidatasMarcadas db respostas.protegidasOk)
      (faltam limiares.minFreeBytes uso.freeBytes) guarda.active c ∧
    (candidatas db).find? (fun row => row.id = c.id) = some original ∧
    (respostas.remover original).isSome = true

variable {localeCompare limiares} {db : Tables} {respostas : Respostas} {guarda : Guarda}
  {uso : StorageUsage}

theorem rotacionar_frees_iff (camerasAtivas : List Text) (freeBytes : Nat) :
    rotacionarParaLiberarEspaco localeCompare limiares db respostas camerasAtivas freeBytes ≠ [] ↔
      respostas.candidatasOk = true ∧ ∃ c original,
        Alcancada localeCompare (candidatasMarcadas db respostas.protegidasOk)
          (faltam limiares.minFreeBytes freeBytes) camerasAtivas c ∧
        (candidatas db).find? (fun row => row.id = c.id) = some original ∧
        (respostas.remover original).isSome = true := by
  unfold rotacionarParaLiberarEspaco
  by_cases ok : respostas.candidatasOk = true
  · rw [if_pos ok]
    constructor
    · intro apagou
      obtain ⟨apagada, member⟩ := exists_mem_of_ne_nil _ apagou
      obtain ⟨c, escolhida, removida⟩ := mem_filterMap.mp member
      obtain ⟨original, achado, removido⟩ := Option.bind_eq_some_iff.mp removida
      obtain ⟨tamanho, saiu, -⟩ := Option.map_eq_some_iff.mp removido
      refine ⟨ok, c, original, (mem_planoDaRotacao_iff _ _ _ _ _ _ c).mp escolhida, achado, ?_⟩
      rw [saiu]
      rfl
    · rintro ⟨-, c, original, alcancada, achado, removivel⟩
      obtain ⟨tamanho, saiu⟩ := Option.isSome_iff_exists.mp removivel
      apply ne_nil_of_mem
      refine mem_filterMap.mpr ⟨c, (mem_planoDaRotacao_iff _ _ _ _ _ _ c).mpr alcancada,
        (?_ : _ = some (original.id, tamanho))⟩
      rw [achado, Option.bind_some, saiu, Option.map_some]
  · rw [if_neg ok]
    constructor
    · intro apagou
      exact absurd rfl apagou
    · intro condicao
      exact absurd condicao.1 ok

theorem suspensoes_only (cameras : List Text) : ¬ LiberaAntes (cameras.map Efeito.suspensa) := by
  rintro ⟨antes, id, tamanho, depois, split, -⟩
  have member : Efeito.apagada id tamanho ∈ cameras.map Efeito.suspensa := by
    rw [split]
    exact mem_append_right _ mem_cons_self
  obtain ⟨cameraId, -, same⟩ := mem_map.mp member
  cases same

theorem limpeza_first (apagadas : List (Text × Nat)) (resto : List Efeito) (apagou : apagadas ≠ []) :
    LiberaAntes ((apagadas.map fun apagada => Efeito.apagada apagada.1 apagada.2) ++ resto) := by
  cases apagadas with
  | nil => exact absurd rfl apagou
  | cons apagada mais =>
    refine ⟨[], apagada.1, apagada.2, _, rfl, ?_⟩
    intro cameraId member
    cases member

theorem enforceDiskGuard_critical (local_ : guarda.controlModeLocal = true)
    (gravando : guarda.active ≠ []) (critico : critical limiares uso = true) :
    LiberaAntes (enforceDiskGuard localeCompare limiares db respostas guarda uso) ↔
      rotacionarParaLiberarEspaco localeCompare limiares db respostas guarda.active uso.freeBytes ≠
        [] := by
  unfold enforceDiskGuard
  rw [if_pos local_, if_neg (fun parada => gravando parada.1), if_pos critico, if_neg gravando]
  generalize rotacionarParaLiberarEspaco localeCompare limiares db respostas guarda.active
    uso.freeBytes = apagadas
  by_cases apagou : apagadas = []
  · subst apagou
    have nada : ¬ 0 < liberados [] := Nat.lt_irrefl 0
    simp only [if_neg nada, map_nil, nil_append, ne_eq, not_true, iff_false]
    exact suspensoes_only guarda.active
  · have primeiro := fun resto => limpeza_first apagadas resto apagou
    have so := primeiro []
    rw [append_nil] at so
    refine iff_of_true ?_ apagou
    dsimp only
    by_cases liberou : 0 < liberados apagadas
    · rw [if_pos liberou]
      cases respostas.depois with
      | none => exact so
      | some depois =>
        dsimp only
        split
        · exact primeiro _
        · exact so
    · rw [if_neg liberou]
      exact primeiro _

/-- The guard frees a recording before it suspends exactly when the ring reaches one that can be
removed. -/
theorem enforceDiskGuard_frees_first_iff (localeCompare : Text → Text → Int) (limiares : Limiares)
    (db : Tables) (respostas : Respostas) (guarda : Guarda) (uso : StorageUsage) :
    (Premissa limiares db guarda uso →
        LiberaAntes (enforceDiskGuard localeCompare limiares db respostas guarda uso)) ↔
      (Premissa limiares db guarda uso →
        PodeLiberar localeCompare limiares db respostas guarda uso) := by
  have each : Premissa limiares db guarda uso →
      (LiberaAntes (enforceDiskGuard localeCompare limiares db respostas guarda uso) ↔
        PodeLiberar localeCompare limiares db respostas guarda uso) := by
    intro premissa
    rw [enforceDiskGuard_critical premissa.controlModeLocal premissa.gravando premissa.critico]
    exact rotacionar_frees_iff guarda.active uso.freeBytes
  exact ⟨fun libera premissa => (each premissa).mp (libera premissa),
    fun pode premissa => (each premissa).mpr (pode premissa)⟩

end Guardar

/-- 1000 GiB with 100 GiB free: 90% used. -/
def discoGrande : StorageUsage := getStorageUsage 262144000 26214400 4096

def umaCamera : Guarda := ⟨true, [['c']], false⟩

def tudoResponde : Respostas where
  protegidasOk := true
  candidatasOk := true
  remover := fun row => some ((row.sizeBytes.elim 0 Int.toNat))
  depois := some discoGrande

def limiaresPadrao : Limiares := ⟨2147483648, 5, 85⟩

def acervoLivre : Tables := ⟨[gravacaoRetida], [], []⟩

/-- The guard suspends the only camera, with 97 GiB above its target and a recording to spare. -/
theorem discoGrande_suspends : Premissa limiaresPadrao acervoLivre umaCamera discoGrande ∧
      enforceDiskGuard (fun _ _ => 0) limiaresPadrao acervoLivre tudoResponde umaCamera discoGrande =
        [.suspensa ['c']] ∧
      ¬ LiberaAntes (enforceDiskGuard (fun _ _ => 0) limiaresPadrao acervoLivre tudoResponde umaCamera
        discoGrande) := by
  have so : enforceDiskGuard (fun _ _ => 0) limiaresPadrao acervoLivre tudoResponde umaCamera
      discoGrande = [.suspensa ['c']] := by
    decide +kernel
  refine ⟨⟨rfl, cons_ne_nil _ _, by decide +kernel, gravacaoRetida, mem_singleton_self _,
    rfl, rfl, ⟨1048576, rfl, by decide⟩, by decide +kernel⟩, so, ?_⟩
  rw [so]
  exact suspensoes_only [['c']]

end DracVms.DiskGuard
