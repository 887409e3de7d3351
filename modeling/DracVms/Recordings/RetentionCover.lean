import DracVms.Recordings.RetentionGroups

/-! The retention groups for overrides and a global that are any number, and the one group that a
recording falls into. -/
namespace DracVms.RetentionCover

open List Json Where Retention

/-- What a camera and its group say, as it is read: `none` is null, or a number that is not finite. -/
structure Camera where
  id : Text
  retentionDays : Option ℚ
  retentionFollowsGroup : Bool
  grupoRetentionDays : Option ℚ

/-- The table of cameras, whose ids are unique. -/
structure Cadastro where
  cameras : List Camera
  distinct : (cameras.map Camera.id).Nodup

def PISO_DIAS : ℤ := 1

def retencaoEfetiva (entrada : Camera) (globalDays : ℚ) : ℤ :=
  let global := max PISO_DIAS (if ⌊globalDays⌋ = 0 then PISO_DIAS else ⌊globalDays⌋)
  let escolhido := if entrada.retentionFollowsGroup then entrada.grupoRetentionDays
    else entrada.retentionDays
  match escolhido with
  | none => global
  | some dias => if dias < PISO_DIAS then global else ⌊dias⌋

structure Group where
  days : ℚ
  filter : CameraFilter

def porDias (cameras : List Camera) (globalDays : ℚ) : List (ℤ × List Text) :=
  cameras.foldl
    (fun byDays camera => agrupar byDays (retencaoEfetiva camera globalDays) camera.id) []

def loadRetentionGroups (cameras : List Camera) (globalDays : ℚ) : List Group :=
  (porDias cameras globalDays).map (fun bucket => ⟨bucket.1, .oneOf bucket.2⟩) ++
    [⟨globalDays, if cameras = [] then .every else .noneOf (cameras.map Camera.id)⟩]

/-- The days of the camera of a recording, or the global when the camera is gone. -/
def daysOf (cameras : List Camera) (globalDays : ℚ) (cameraId : Text) : ℚ :=
  match cameras.find? fun camera => camera.id = cameraId with
  | some camera => retencaoEfetiva camera globalDays
  | none => globalDays

/-- The recording is in one group and in no other, which keeps it as long as its camera says and at
least for a day. -/
def Assigned (cameras : List Camera) (globalDays : ℚ) (row : ExpiringRecording) : Prop :=
  ∃ before group after, loadRetentionGroups cameras globalDays = before ++ group :: after ∧
    Selects group.filter.condition row ∧
    (∀ other ∈ before ++ after, ¬Selects other.filter.condition row) ∧
    group.days = daysOf cameras globalDays row.cameraId ∧ 1 ≤ group.days

theorem retencaoEfetiva_piso (entrada : Camera) (globalDays : ℚ) :
    1 ≤ retencaoEfetiva entrada globalDays := by
  have global := le_max_left PISO_DIAS (if ⌊globalDays⌋ = 0 then PISO_DIAS else ⌊globalDays⌋)
  unfold retencaoEfetiva
  dsimp only
  split
  · exact global
  · split
    · exact global
    · rename_i dias _ enough
      apply Int.le_floor.mpr
      exact not_lt.mp enough

theorem mem_porDias (cameras : List Camera) (globalDays : ℚ) :
    Grouping.Groups (porDias cameras globalDays)
      (cameras.map fun camera => (retencaoEfetiva camera globalDays, camera.id)) := by
  have same : porDias cameras globalDays = Grouping.group
      (cameras.map fun camera => (retencaoEfetiva camera globalDays, camera.id)) := by
    unfold porDias Grouping.group
    rw [foldl_map]
    rfl
  rw [same]
  exact Grouping.groups_group _

variable (cadastro : Cadastro) (globalDays : ℚ)

theorem daysOf_camera {camera : Camera} (present : camera ∈ cadastro.cameras) :
    daysOf cadastro.cameras globalDays camera.id = retencaoEfetiva camera globalDays := by
  unfold daysOf
  have found : KeyedList.lookup Camera.id cadastro.cameras camera.id = some camera :=
    KeyedList.lookup_eq_some cadastro.distinct present
  rw [KeyedList.lookup] at found
  rw [found]

theorem daysOf_gone {cameras : List Camera} {cameraId : Text}
    (gone : cameraId ∉ cameras.map Camera.id) :
    daysOf cameras globalDays cameraId = globalDays := by
  have none : (cameras.find? fun camera => camera.id = cameraId) = none := by
    apply find?_eq_none.mpr
    intro camera present named
    exact gone (mem_map.mpr ⟨camera, present, of_decide_eq_true named⟩)
  unfold daysOf
  rw [none]

theorem selects_remainder (cameras : List Camera) (row : ExpiringRecording) :
    Selects (if cameras = [] then CameraFilter.every
        else .noneOf (cameras.map Camera.id)).condition row ↔
      row.cameraId ∉ cameras.map Camera.id := by
  split
  · rename_i none
    simp [CameraFilter.condition, none]
  · simp [CameraFilter.condition]

theorem selects_bucket {bucket : ℤ × List Text}
    (listed : bucket ∈ porDias cadastro.cameras globalDays) (row : ExpiringRecording) :
    Selects (CameraFilter.oneOf bucket.2).condition row ↔
      ∃ camera ∈ cadastro.cameras, camera.id = row.cameraId ∧
        retencaoEfetiva camera globalDays = bucket.1 := by
  rw [selects_oneOf, (mem_porDias cadastro.cameras globalDays).listed bucket listed,
    Grouping.mem_values, mem_map]
  constructor
  · rintro ⟨camera, present, same⟩
    obtain ⟨days, id⟩ := Prod.mk.inj same
    exact ⟨camera, present, id, days⟩
  · rintro ⟨camera, present, id, days⟩
    exact ⟨camera, present, Prod.ext days id⟩

theorem assigned_camera (row : ExpiringRecording) {camera : Camera}
    (present : camera ∈ cadastro.cameras) (named : camera.id = row.cameraId) :
    Assigned cadastro.cameras globalDays row := by
  have grouped := mem_porDias cadastro.cameras globalDays
  have key := (grouped.met (retencaoEfetiva camera globalDays)).mpr
    (mem_map.mpr ⟨_, mem_map_of_mem present, rfl⟩)
  obtain ⟨bucket, listed, days⟩ := mem_map.mp key
  obtain ⟨before, after, split⟩ := append_of_mem listed
  have keys := grouped.keys
  rw [split, map_append, map_cons] at keys
  let toGroup : ℤ × List Text → Group := fun bucket => ⟨bucket.1, .oneOf bucket.2⟩
  refine ⟨before.map toGroup, toGroup bucket, after.map toGroup ++
    [⟨globalDays, if cadastro.cameras = [] then .every
      else .noneOf (cadastro.cameras.map Camera.id)⟩], ?_, ?_, ?_, ?_, ?_⟩
  · unfold loadRetentionGroups
    rw [split, map_append, map_cons, append_assoc, cons_append]
  · exact (selects_bucket cadastro globalDays listed row).mpr ⟨camera, present, named, days.symm⟩
  · intro other elsewhere selected
    rw [← append_assoc, ← map_append, mem_append] at elsewhere
    rcases elsewhere with bucketed | last
    · obtain ⟨bucket', outside, same⟩ := mem_map.mp bucketed
      have listed' : bucket' ∈ porDias cadastro.cameras globalDays := by
        rw [split]
        exact (mem_append.mp outside).elim (mem_append_left _)
          fun later => mem_append_right _ (mem_cons_of_mem _ later)
      rw [← same] at selected
      obtain ⟨camera', present', named', days'⟩ :=
        (selects_bucket cadastro globalDays listed' row).mp selected
      have one := KeyedList.eq_of_key cadastro.distinct present present' (named.trans named'.symm)
      rw [← one, ← days] at days'
      have apart := (nodup_middle.mp keys)
      rw [nodup_cons, ← map_append] at apart
      exact apart.1 (days' ▸ mem_map_of_mem outside)
    · rw [mem_singleton.mp last, selects_remainder] at selected
      exact selected (mem_map.mpr ⟨camera, present, named⟩)
  · rw [← named, daysOf_camera cadastro globalDays present, ← days]
  · show (1 : ℚ) ≤ (bucket.1 : ℤ)
    rw [days]
    exact_mod_cast retencaoEfetiva_piso camera globalDays

theorem assigned_gone (row : ExpiringRecording)
    (gone : row.cameraId ∉ cadastro.cameras.map Camera.id) :
    Assigned cadastro.cameras globalDays row ↔ 1 ≤ globalDays := by
  have days := daysOf_gone globalDays gone
  constructor
  · rintro ⟨before, group, after, -, -, -, kept, enough⟩
    rw [kept, days] at enough
    exact enough
  · intro enough
    refine ⟨_, _, [], rfl, (selects_remainder cadastro.cameras row).mpr gone, ?_, days.symm, enough⟩
    intro other bucketed selected
    rw [append_nil] at bucketed
    obtain ⟨bucket, listed, same⟩ := mem_map.mp bucketed
    rw [← same] at selected
    obtain ⟨camera, present, named, -⟩ := (selects_bucket cadastro globalDays listed row).mp selected
    exact gone (mem_map.mpr ⟨camera, present, named⟩)

theorem assigned_iff (cadastro : Cadastro) (globalDays : ℚ) (row : ExpiringRecording) :
    Assigned cadastro.cameras globalDays row ↔
      row.cameraId ∈ cadastro.cameras.map Camera.id ∨ 1 ≤ globalDays := by
  by_cases known : row.cameraId ∈ cadastro.cameras.map Camera.id
  · obtain ⟨camera, present, named⟩ := mem_map.mp known
    exact iff_of_true (assigned_camera cadastro globalDays row present named) (Or.inl known)
  · rw [assigned_gone cadastro globalDays row known]
    exact (or_iff_right known).symm

theorem half_day_global : ∃ (cadastro : Cadastro) (globalDays : ℚ) (row : ExpiringRecording),
    0 < globalDays ∧ ¬Assigned cadastro.cameras globalDays row := by
  refine ⟨⟨[], nodup_nil⟩, 1 / 2, ⟨[], [], [], 0, none, none, none, none⟩, by norm_num, ?_⟩
  rw [assigned_gone _ _ _ not_mem_nil]
  norm_num

end DracVms.RetentionCover
