import DracVms.Library.Json
import DracVms.Library.KeyedList
import DracVms.Library.Runs

namespace DracVms.ArmedCameras

open List KeyedList

open Json (Text)
open KeyedList (lookup updateAt)

inductive RecordingMode where
  | continuous
  | motion
  | object
  | manual
  deriving DecidableEq

inductive MotionTrigger where
  | system
  | camera
  deriving DecidableEq

inductive ZoneKind where
  | includes
  | excludes
  | line
  deriving DecidableEq

/-- A vertex, where what is not a finite number is nothing. -/
structure Point where
  x : Option ℚ
  y : Option ℚ

structure DetectionZone where
  kind : ZoneKind
  points : List Point

/-! The rules. -/

def modoArmado (recordingMode : RecordingMode) : Bool :=
  recordingMode = .motion || recordingMode = .object

def detectorObrigatorio (recordingMode : RecordingMode) (motionTrigger : MotionTrigger) : Bool :=
  modoArmado recordingMode && motionTrigger = .system

/-- Without an answer the field is left as it is. -/
def aiEnabledEfetivo (recordingMode : RecordingMode) (motionTrigger : MotionTrigger)
    (aiEnabled : Option Bool) : Option Bool :=
  if detectorObrigatorio recordingMode motionTrigger then some true else aiEnabled

def temZonaDeArea (zonas : Option (List DetectionZone)) : Bool :=
  zonas.any fun list => list.any fun zona => zona.kind = .includes || zona.kind = .excludes

def isNormalized (coordinate : Option ℚ) : Bool := coordinate.any fun value => 0 ≤ value && value ≤ 1

/-- A line has two ends, apart from each other, and an area has an interior. -/
def validarZona (zona : DetectionZone) : Bool :=
  (match zona.kind, zona.points with
    | .line, [a, b] => !(a.x.isSome && a.x = b.x && a.y.isSome && a.y = b.y)
    | .line, _ => false
    | _, pontos => 3 ≤ pontos.length) &&
  zona.points.all fun par => isNormalized par.x && isNormalized par.y

def validarZonasDeDeteccao (zonas : Option (List DetectionZone)) : Bool :=
  zonas.all fun list => list.all validarZona

/-! The requests. -/

structure CreateCameraDto where
  pushSourced : Bool
  recordingMode : Option RecordingMode
  recordingEnabled : Option Bool
  motionTrigger : Option MotionTrigger
  aiEnabled : Option Bool
  hasEdgeAi : Option Bool

structure UpdateCameraDto where
  recordingMode : Option RecordingMode
  motionTrigger : Option MotionTrigger
  aiEnabled : Option Bool
  detectionZones : Option (List DetectionZone)

/-- The declared limits of the zones. -/
def UpdateCameraDto.isValid (dto : UpdateCameraDto) : Bool :=
  dto.detectionZones.all fun list =>
    list.length ≤ 12 && list.all fun zona => 2 ≤ zona.points.length && zona.points.length ≤ 40

structure Camera where
  id : Text
  recordingMode : RecordingMode
  motionTrigger : MotionTrigger
  aiEnabled : Bool
  detectionZones : Option (List DetectionZone)

def CreateCameraDto.trigger (dto : CreateCameraDto) : MotionTrigger :=
  dto.motionTrigger.getD (if dto.hasEdgeAi.getD false then .camera else .system)

def createPushSourcedCamera (id : Text) (dto : CreateCameraDto) : Camera where
  id := id
  recordingMode := .manual
  motionTrigger := dto.trigger
  aiEnabled := (aiEnabledEfetivo .manual dto.trigger (some (dto.aiEnabled.getD true))).getD true
  detectionZones := none

def create (id : Text) (dto : CreateCameraDto) : Camera :=
  if dto.pushSourced then createPushSourcedCamera id dto
  else {
    id := id
    recordingMode := dto.recordingMode.getD
      (if dto.recordingEnabled.getD true then .continuous else .manual)
    motionTrigger := dto.trigger
    aiEnabled := (aiEnabledEfetivo (dto.recordingMode.getD .continuous) dto.trigger
      (some (dto.aiEnabled.getD true))).getD true
    detectionZones := none }

/-- The zones of the request move the trigger of the camera that was read. -/
def migrarGatilhoParaZonas (dto : UpdateCameraDto) (existing : Camera) : Bool :=
  temZonaDeArea dto.detectionZones && dto.recordingMode.getD existing.recordingMode = .motion &&
    existing.motionTrigger = .camera

/-- The row after the write, from the camera that was read. What the request leaves open stays as
it is in the row, but for the trigger. -/
def updated (dto : UpdateCameraDto) (existing row : Camera) : Camera where
  id := row.id
  recordingMode := dto.recordingMode.getD row.recordingMode
  motionTrigger :=
    if migrarGatilhoParaZonas dto existing then .system
    else dto.motionTrigger.getD existing.motionTrigger
  aiEnabled :=
    if migrarGatilhoParaZonas dto existing then true
    else (aiEnabledEfetivo (dto.recordingMode.getD existing.recordingMode)
      (dto.motionTrigger.getD existing.motionTrigger) dto.aiEnabled).getD row.aiEnabled
  detectionZones := dto.detectionZones.or row.detectionZones

/-! The runs. -/

/-- An update that has read its camera. -/
structure Update where
  id : Text
  dto : UpdateCameraDto
  existing : Camera

structure System where
  cameras : List Camera
  updates : List Update

def System.empty : System := ⟨[], []⟩

inductive Step where
  | create (id : Text) (dto : CreateCameraDto)
  /-- The camera is read, and the request is checked. -/
  | read (id : Text) (dto : UpdateCameraDto)
  | write (index : ℕ)
  /-- The request is refused between the two. -/
  | refuse (index : ℕ)

def step (s : System) : Step → Option System
  | .create id dto =>
    if s.cameras.any fun camera => camera.id = id then none
    else some { s with cameras := s.cameras ++ [create id dto] }
  | .read id dto =>
    if dto.isValid then
      (lookup Camera.id s.cameras id).map fun existing =>
        if validarZonasDeDeteccao dto.detectionZones then
          { s with updates := s.updates ++ [⟨id, dto, existing⟩] }
        else s
    else none
  | .write index =>
    s.updates[index]?.map fun update => {
      cameras := updateAt Camera.id s.cameras update.id (updated update.dto update.existing)
      updates := s.updates.eraseIdx index }
  | .refuse index => some { s with updates := s.updates.eraseIdx index }

/-! The armed cameras. -/

@[mk_iff]
structure Camera.CanFire (camera : Camera) : Prop where
  /-- Who waits for an event of the system has the detector on. -/
  detector : modoArmado camera.recordingMode = true → camera.motionTrigger = .system →
    camera.aiEnabled = true
  /-- Who records on motion in an area has the trigger that knows the areas. -/
  trigger : camera.recordingMode = .motion → temZonaDeArea camera.detectionZones = true →
    camera.motionTrigger = .system

/-- A write that leaves a camera armed on the system's trigger found it armed when it read it, or
leaves the detector on; and one that leaves a camera on motion in areas, with the trigger of the
camera, brings the areas itself and has read the camera with that trigger. -/
structure Heeds (dto : UpdateCameraDto) (existing row : Camera) : Prop where
  detector : modoArmado (dto.recordingMode.getD row.recordingMode) = true →
    dto.motionTrigger.getD existing.motionTrigger = .system →
    migrarGatilhoParaZonas dto existing = true ∨
      modoArmado (dto.recordingMode.getD existing.recordingMode) = true ∨
      dto.aiEnabled.getD row.aiEnabled = true
  trigger : dto.recordingMode.getD row.recordingMode = .motion →
    temZonaDeArea (dto.detectionZones.or row.detectionZones) = true →
    dto.motionTrigger.getD existing.motionTrigger = .camera →
    temZonaDeArea dto.detectionZones = true ∧ existing.motionTrigger = .camera ∧
      dto.recordingMode.getD existing.recordingMode = .motion

def Orderly (s : System) : Step → Prop
  | .write index => ∀ update ∈ s.updates[index]?, ∀ row ∈ lookup Camera.id s.cameras update.id,
      Heeds update.dto update.existing row
  | _ => True

theorem create_canFire (id : Text) (dto : CreateCameraDto) : (create id dto).CanFire := by
  unfold create
  split
  · constructor
    · intro armed
      exact absurd (show modoArmado .manual = true from armed) (by decide)
    · intro motion
      exact absurd (show RecordingMode.manual = .motion from motion) (by decide)
  · constructor
    · intro armed system
      cases mode : dto.recordingMode with
      | none =>
        simp only [mode, Option.getD_none] at armed
        split at armed
        all_goals exact absurd armed (by decide)
      | some chosen =>
        simp only [mode, Option.getD_some] at armed system ⊢
        rw [aiEnabledEfetivo, detectorObrigatorio, armed, system]
        rfl
    · intro _ areas
      cases areas

theorem updated_canFire_iff (dto : UpdateCameraDto) (existing row : Camera) :
    (updated dto existing row).CanFire ↔ Heeds dto existing row := by
  by_cases migrates : migrarGatilhoParaZonas dto existing = true
  · have parts := migrates
    simp only [migrarGatilhoParaZonas, Bool.and_eq_true, decide_eq_true_eq] at parts
    constructor
    · intro _
      exact ⟨fun _ _ => Or.inl migrates, fun _ _ _ => ⟨parts.1.1, parts.2, parts.1.2⟩⟩
    · intro _
      constructor
      all_goals
        intro _ _
        exact if_pos migrates
  · have trigger : (updated dto existing row).motionTrigger =
        dto.motionTrigger.getD existing.motionTrigger := if_neg migrates
    have detector : (updated dto existing row).aiEnabled =
        (aiEnabledEfetivo (dto.recordingMode.getD existing.recordingMode)
          (dto.motionTrigger.getD existing.motionTrigger) dto.aiEnabled).getD row.aiEnabled :=
      if_neg migrates
    constructor
    · intro fires
      constructor
      · intro armed system
        right
        have on := fires.detector armed (trigger.trans system)
        by_cases seen : modoArmado (dto.recordingMode.getD existing.recordingMode) = true
        · exact Or.inl seen
        · right
          rw [detector, aiEnabledEfetivo, detectorObrigatorio, if_neg] at on
          · exact on
          · rw [Bool.and_eq_true]
            exact fun both => seen both.1
      · intro motion areas camera
        have system := fires.trigger motion areas
        rw [trigger, camera] at system
        cases system
    · intro heeds
      constructor
      · intro armed system
        rw [trigger] at system
        rw [detector, aiEnabledEfetivo, detectorObrigatorio]
        rcases heeds.detector armed system with moved | seen | on
        · exact absurd moved migrates
        · rw [seen, system]
          rfl
        · split
          · rfl
          · exact on
      · intro motion areas
        cases read : dto.motionTrigger.getD existing.motionTrigger with
        | system => exact trigger.trans read
        | camera =>
          obtain ⟨brings, seen, mode⟩ := heeds.trigger motion areas read
          apply absurd _ migrates
          simp only [migrarGatilhoParaZonas, Bool.and_eq_true, decide_eq_true_eq]
          exact ⟨⟨brings, mode⟩, seen⟩

/-- Every camera can fire all along a run exactly when every write of the run is orderly. -/
theorem armed_iff (steps : List Step) (s : System) (reached : Runs.run step .empty steps = some s) :
    (∀ n t, Runs.run step .empty (steps.take n) = some t → ∀ camera ∈ t.cameras, camera.CanFire) ↔
      Runs.Allowed step Orderly .empty steps := by
  have starts : (System.empty.cameras.map Camera.id).Nodup ∧
      ∀ camera ∈ System.empty.cameras, camera.CanFire := by
    refine ⟨nodup_nil, ?_⟩
    intro camera listed
    cases listed
  apply Runs.prefixes_iff_kept step
    (fun t (both : (t.cameras.map Camera.id).Nodup ∧ ∀ camera ∈ t.cameras, camera.CanFire) =>
      both.2) .empty s steps _ starts reached
  rintro s a - t ⟨distinct, fires⟩ taken
  have same : t.cameras = s.cameras → Orderly s a →
      ((∀ camera ∈ t.cameras, camera.CanFire) ↔ Orderly s a) ∧
        (Orderly s a → (t.cameras.map Camera.id).Nodup ∧ ∀ camera ∈ t.cameras, camera.CanFire) := by
    intro cameras orderly
    rw [cameras]
    exact ⟨⟨fun _ => orderly, fun _ => fires⟩, fun _ => ⟨distinct, fires⟩⟩
  cases a with
  | create id dto =>
    simp only [step] at taken
    split at taken
    · cases taken
    · rename_i new
      cases taken
      have all : ∀ camera ∈ s.cameras ++ [create id dto], camera.CanFire := by
        intro camera listed
        rcases mem_append.mp listed with old | added
        · exact fires camera old
        · rw [mem_singleton.mp added]
          exact create_canFire id dto
      have named : (create id dto).id = id := by
        unfold create
        split <;> rfl
      refine ⟨⟨fun _ => trivial, fun _ => all⟩, fun _ => ⟨?_, all⟩⟩
      rw [map_append]
      apply nodup_append.mpr
      refine ⟨distinct, nodup_singleton _, ?_⟩
      intro first here second there equal
      obtain ⟨camera, listed, rfl⟩ := mem_map.mp here
      rw [map_singleton, mem_singleton, named] at there
      exact new (any_eq_true.mpr ⟨camera, listed, decide_eq_true (equal.trans there)⟩)
  | read id dto =>
    apply same _ trivial
    simp only [step] at taken
    split at taken
    · obtain ⟨existing, -, rfl⟩ := Option.map_eq_some_iff.mp taken
      split <;> rfl
    · cases taken
  | refuse index =>
    cases taken
    exact same rfl trivial
  | write index =>
    obtain ⟨update, located, rfl⟩ := Option.map_eq_some_iff.mp taken
    have exact_ : (∀ camera ∈ updateAt Camera.id s.cameras update.id
        (updated update.dto update.existing), camera.CanFire) ↔ Orderly s (.write index) := by
      constructor
      · intro all other here row found
        have equal : other = update := Option.some.inj (here.symm.trans located)
        subst equal
        obtain ⟨listed, named⟩ := lookup_mem found
        rw [← named] at all
        exact (updated_canFire_iff _ _ row).mp
          (all _ ((mem_updateAt distinct listed _ _).mpr (Or.inl rfl)))
      · intro orderly camera listed
        obtain ⟨old, here, ⟨-, rfl⟩ | ⟨named, rfl⟩⟩ := of_mem_updateAt listed
        · exact fires camera here
        · apply (updated_canFire_iff _ _ old).mpr
          apply orderly update located old
          rw [← named]
          exact lookup_eq_some distinct here
    refine ⟨exact_, ?_⟩
    intro orderly
    refine ⟨?_, exact_.mpr orderly⟩
    rw [map_updateAt Camera.id s.cameras update.id
      (updated update.dto update.existing) Camera.id fun _ => rfl]
    exact distinct

/-! Areas and motion, in either order. -/

instance (camera : Camera) : Decidable camera.CanFire :=
  decidable_of_iff _ camera.canFire_iff.symm

def gate : DetectionZone :=
  ⟨.includes, [⟨some 0, some 0⟩, ⟨some 1, some 0⟩, ⟨some 1, some 1⟩]⟩

/-- A camera that sees motion itself. -/
def edgeCamera : Step := .create ['a'] ⟨false, none, none, none, none, some true⟩

def drawArea : List Step := [.read ['a'] ⟨none, none, none, some [gate]⟩, .write 0]

def recordOnMotion : List Step := [.read ['a'] ⟨some .motion, none, none, none⟩, .write 0]

/-- First the mode, then the area: the trigger moves. -/
theorem modeThenArea_fires :
    (∀ n t, Runs.run step .empty ((edgeCamera :: (recordOnMotion ++ drawArea)).take n) = some t →
      ∀ camera ∈ t.cameras, camera.CanFire) ↔
      Runs.Allowed step Orderly .empty (edgeCamera :: (recordOnMotion ++ drawArea)) :=
  armed_iff _ ((Runs.run step .empty (edgeCamera :: (recordOnMotion ++ drawArea))).get
    (by decide +kernel)) (Option.some_get _).symm

/-- First the area, then the mode: the camera keeps a trigger that does not know the area. -/
theorem areaThenMode_mute : ¬∀ (steps : List Step) (s : System),
    Runs.run step .empty steps = some s → ∀ camera ∈ s.cameras, camera.CanFire := by
  intro always
  have mute : ∃ camera ∈ ((Runs.run step .empty (edgeCamera :: (drawArea ++ recordOnMotion))).getD
      .empty).cameras, ¬camera.CanFire := by decide +kernel
  obtain ⟨camera, listed, broken⟩ := mute
  cases reached : Runs.run step .empty (edgeCamera :: (drawArea ++ recordOnMotion)) with
  | none =>
    rw [reached] at listed
    cases listed
  | some s =>
    rw [reached] at listed
    exact broken (always _ s reached camera listed)

end DracVms.ArmedCameras
