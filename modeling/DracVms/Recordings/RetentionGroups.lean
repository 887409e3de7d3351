import DracVms.Library.Grouping
import DracVms.Library.KeyedList
import DracVms.Recordings.BatchExpiry

namespace DracVms.Retention

open Json Where

/-- The days of the camera of a recording, or of the installation when the camera is gone. -/
def diasDe (cameras : List CameraRow) (globalDays : Int) (cameraId : Text) : Int :=
  ((cameras.find? fun camera => camera.id = cameraId).map (retencaoEfetiva · globalDays)).getD
    globalDays

/-- The buckets hold the cameras that were met, each under its own days. -/
structure Agrupado (globalDays : Int) (byDays : List (Int × List Text))
    (cameras : List CameraRow) : Prop where
  keys : (byDays.map Prod.fst).Nodup
  members : ∀ days id, (∃ ids, (days, ids) ∈ byDays ∧ id ∈ ids) ↔
    ∃ camera ∈ cameras, camera.id = id ∧ retencaoEfetiva camera globalDays = days

theorem porDias_agrupado (cameras : List CameraRow) (globalDays : Int) :
    Agrupado globalDays (porDias cameras globalDays) cameras := by
  let items := cameras.map fun camera => (retencaoEfetiva camera globalDays, camera.id)
  have same : porDias cameras globalDays = Grouping.group items := by
    unfold porDias Grouping.group
    rw [List.foldl_map]
    rfl
  have grouped := Grouping.groups_group items
  rw [← same] at grouped
  have met : ∀ days id, (days, id) ∈ items ↔
      ∃ camera ∈ cameras, camera.id = id ∧ retencaoEfetiva camera globalDays = days := by
    intro days id
    rw [List.mem_map]
    constructor
    · rintro ⟨camera, present, named⟩
      cases named
      exact ⟨camera, present, rfl, rfl⟩
    · rintro ⟨camera, present, rfl, rfl⟩
      exact ⟨camera, present, rfl⟩
  refine ⟨grouped.keys, ?_⟩
  intro days id
  rw [← met]
  constructor
  · rintro ⟨ids, present, named⟩
    have listed : ids = Grouping.values days items := grouped.listed _ present
    rw [listed] at named
    exact Grouping.mem_values.mp named
  · intro item
    have key := (grouped.met days).mpr (List.mem_map_of_mem (f := Prod.fst) item)
    obtain ⟨bucket, present, here⟩ := List.mem_map.mp key
    have listed := grouped.listed bucket present
    rw [here] at listed
    refine ⟨bucket.2, by rw [← here]; exact present, ?_⟩
    rw [listed]
    exact Grouping.mem_values.mpr item

section Groups

variable (cameras : List CameraRow) (globalDays : Int)
  (distinct : (cameras.map CameraRow.id).Nodup)

theorem selects_oneOf (ids : List Text) (row : ExpiringRecording) :
    Selects (CameraFilter.oneOf ids).condition row ↔ row.cameraId ∈ ids := by
  simp [CameraFilter.condition]

theorem selects_remainder (row : ExpiringRecording) :
    Selects (if cameras = [] then CameraFilter.every
        else .noneOf (cameras.map CameraRow.id)).condition row ↔
      row.cameraId ∉ cameras.map CameraRow.id := by
  split
  · rename_i none
    simp [CameraFilter.condition, none]
  · simp [CameraFilter.condition]

include distinct in
theorem diasDe_camera (camera : CameraRow) (present : camera ∈ cameras) :
    diasDe cameras globalDays camera.id = retencaoEfetiva camera globalDays := by
  have found : (cameras.find? fun other => other.id = camera.id) = some camera := by
    cases result : cameras.find? fun other => other.id = camera.id with
    | none =>
      have none := List.find?_eq_none.mp result camera present
      exact absurd (decide_eq_true rfl) none
    | some other =>
      have named := List.find?_some result
      have listed := List.mem_of_find?_eq_some result
      rw [KeyedList.eq_of_key distinct listed present (of_decide_eq_true named)]
  rw [diasDe, found]
  rfl

theorem diasDe_gone (cameraId : Text) (gone : cameraId ∉ cameras.map CameraRow.id) :
    diasDe cameras globalDays cameraId = globalDays := by
  have none : (cameras.find? fun camera => camera.id = cameraId) = none := by
    apply List.find?_eq_none.mpr
    intro camera present named
    exact gone (List.mem_map.mpr ⟨camera, present, of_decide_eq_true named⟩)
  rw [diasDe, none]
  rfl

include distinct in
theorem group_days (group : RetentionGroup) (listed : group ∈ loadRetentionGroups cameras globalDays)
    (row : ExpiringRecording) (selected : Selects group.filter.condition row) :
    group.days = diasDe cameras globalDays row.cameraId := by
  rcases List.mem_append.mp listed with bucketed | last
  · obtain ⟨bucket, present, same⟩ := List.mem_map.mp bucketed
    rw [← same, selects_oneOf] at selected
    obtain ⟨camera, known, named, kept⟩ :=
      ((porDias_agrupado cameras globalDays).members bucket.1 row.cameraId).mp
        ⟨bucket.2, present, selected⟩
    rw [← same, ← kept, ← named, diasDe_camera cameras globalDays distinct camera known]
  · rw [List.mem_singleton.mp last, selects_remainder] at selected
    rw [List.mem_singleton.mp last, diasDe_gone cameras globalDays _ selected]

theorem group_exists (row : ExpiringRecording) :
    ∃ group ∈ loadRetentionGroups cameras globalDays, Selects group.filter.condition row := by
  by_cases known : row.cameraId ∈ cameras.map CameraRow.id
  · obtain ⟨camera, present, named⟩ := List.mem_map.mp known
    obtain ⟨ids, bucketed, member⟩ :=
      ((porDias_agrupado cameras globalDays).members _ row.cameraId).mpr
        ⟨camera, present, named, rfl⟩
    refine ⟨⟨_, .oneOf ids⟩, List.mem_append_left _ (List.mem_map.mpr ⟨_, bucketed, rfl⟩), ?_⟩
    exact (selects_oneOf ids row).mpr member
  · exact ⟨_, List.mem_append_right _ List.mem_cons_self, (selects_remainder cameras row).mpr known⟩

include distinct in
theorem groups_disjoint : (loadRetentionGroups cameras globalDays).Pairwise fun a b =>
      ∀ row, Selects a.filter.condition row → ¬Selects b.filter.condition row := by
  have grouped := porDias_agrupado cameras globalDays
  apply List.pairwise_append.mpr
  refine ⟨?_, List.pairwise_singleton _ _, ?_⟩
  · apply List.pairwise_map.mpr
    have keys := List.pairwise_map.mp grouped.keys
    apply List.Pairwise.imp_of_mem _ keys
    intro a b inA inB apart row first second
    rw [selects_oneOf] at first second
    obtain ⟨camera, known, named, kept⟩ := (grouped.members a.1 row.cameraId).mp ⟨a.2, inA, first⟩
    obtain ⟨camera', known', named', kept'⟩ :=
      (grouped.members b.1 row.cameraId).mp ⟨b.2, inB, second⟩
    have same := KeyedList.eq_of_key distinct known known' (named.trans named'.symm)
    apply apart
    rw [← kept, ← kept', same]
  · intro a bucketed b last row first second
    obtain ⟨bucket, present, same⟩ := List.mem_map.mp bucketed
    rw [← same, selects_oneOf] at first
    rw [List.mem_singleton.mp last, selects_remainder] at second
    obtain ⟨camera, known, named, -⟩ :=
      (grouped.members bucket.1 row.cameraId).mp ⟨bucket.2, present, first⟩
    exact second (List.mem_map.mpr ⟨camera, known, named⟩)

end Groups

end DracVms.Retention
