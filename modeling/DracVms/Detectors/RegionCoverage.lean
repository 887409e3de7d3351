import DracVms.Detectors.RegionProposal

namespace DracVms.RegionProposal

open Binary64 (double)
open List hiding beq_eq_decide

theorem boxInside_iff {outer inner : Box} : boxInside outer inner = true ↔
    outer.x1 ≤ inner.x1 ∧ outer.y1 ≤ inner.y1 ∧ inner.x2 ≤ outer.x2 ∧ inner.y2 ≤ outer.y2 := by
  simp only [boxInside, Bool.and_eq_true, decide_eq_true_iff, and_assoc]

/-- A box is below another one when it lies inside it. -/
instance : PartialOrder Box where
  le a b := boxInside b a = true
  le_refl a := boxInside_iff.mpr ⟨le_rfl, le_rfl, le_rfl, le_rfl⟩
  le_trans a b c first second := by
    rw [boxInside_iff] at *
    omega
  le_antisymm a b first second := by
    rw [boxInside_iff] at *
    ext <;> omega

theorem Box.le_iff {inner outer : Box} : inner ≤ outer ↔
    outer.x1 ≤ inner.x1 ∧ outer.y1 ≤ inner.y1 ∧ inner.x2 ≤ outer.x2 ∧ inner.y2 ≤ outer.y2 :=
  boxInside_iff

theorem le_unionBox_left (a b : Box) : a ≤ unionBox a b := by
  rw [Box.le_iff]
  simp only [unionBox]
  omega

theorem le_unionBox_right (a b : Box) : b ≤ unionBox a b := by
  rw [Box.le_iff]
  simp only [unionBox]
  omega

/-- What is not empty and lies in the frame. -/
structure Inside (frame : FrameShape) (b : Box) : Prop where
  left : 0 ≤ b.x1
  top : 0 ≤ b.y1
  right : b.x2 ≤ frame.w
  bottom : b.y2 ≤ frame.h
  wide : b.x1 < b.x2
  high : b.y1 < b.y2

variable {frame : FrameShape} {config : RegionConfig} {b : Box}

theorem Inside.unionBox {a : Box} (one : Inside frame a) (two : Inside frame b) :
    Inside frame (unionBox a b) := by
  obtain ⟨left, top, right, bottom, wide, high⟩ := one
  obtain ⟨left', top', right', bottom', wide', high'⟩ := two
  constructor <;> simp only [RegionProposal.unionBox] <;> omega

theorem pyRound_intCast (n : ℤ) : pyRound n = n := by
  unfold pyRound
  rw [Int.floor_intCast, if_pos (by norm_num)]

theorem clipBox_inside {box : List (Option ℚ)} {clipped : Box}
    (some_ : clipBox box frame = some clipped) : Inside frame clipped := by
  unfold clipBox at some_
  split at some_
  · rename_i x1 y1 x2 y2 rest
    simp only at some_
    split at some_
    · cases some_
    · rename_i proper
      obtain rfl := Option.some.inj some_
      constructor <;> simp only at * <;> omega
  · cases some_

theorem clipBox_values (inside : Inside frame b) : clipBox b.values frame = some b := by
  obtain ⟨left, top, right, bottom, wide, high⟩ := inside
  unfold clipBox Box.values
  simp only [pyRound_intCast]
  have x1 : max 0 (min frame.w b.x1) = b.x1 := by omega
  have y1 : max 0 (min frame.h b.y1) = b.y1 := by omega
  have x2 : max 0 (min frame.w b.x2) = b.x2 := by omega
  have y2 : max 0 (min frame.h b.y2) = b.y2 := by omega
  rw [x1, y1, x2, y2, if_neg (by omega)]

/-- A frame in which a region of the least side has its place. -/
structure Roomy (frame : FrameShape) : Prop where
  wide : 4 ≤ frame.w
  high : 4 ≤ frame.h

theorem square_inside (roomy : Roomy frame) (b : Box) (size : ℤ) :
    Inside frame (square frame b size) := by
  obtain ⟨wide, high⟩ := roomy
  unfold square
  constructor <;> simp only <;> omega

theorem calculateRegion_inside (roomy : Roomy frame) (b : Box) (minSize : ℤ) (multiplier : ℚ) :
    Inside frame (calculateRegion frame b minSize multiplier) := by
  have own := square_inside roomy b (side b minSize multiplier)
  unfold calculateRegion
  cases clipped : clipBox b.values frame with
  | none => exact own
  | some source =>
    simp only
    split
    · exact own.unionBox (clipBox_inside clipped)
    · exact own

theorem le_calculateRegion (inside : Inside frame b) (minSize : ℤ) (multiplier : ℚ) :
    b ≤ calculateRegion frame b minSize multiplier := by
  unfold calculateRegion
  simp only [clipBox_values inside]
  split
  · exact le_unionBox_right _ _
  · rename_i covered
    exact Bool.not_eq_false _ |>.mp fun absent => covered (by rw [absent]; rfl)

/-! Clusters. -/

theorem hull_inside (others : List Box) {first : Box} (inside : Inside frame first)
    (each : ∀ b ∈ others, Inside frame b) : Inside frame (others.foldl unionBox first) := by
  induction others generalizing first with
  | nil => exact inside
  | cons b others ih =>
    exact ih (inside.unionBox (each b (mem_cons_self ..)))
      fun c later => each c (mem_cons_of_mem _ later)

theorem le_hull (others : List Box) (first : Box) :
    ∀ b ∈ first :: others, b ≤ others.foldl unionBox first := by
  induction others generalizing first with
  | nil =>
    intro b inside
    exact (mem_singleton.mp inside).le
  | cons c others ih =>
    intro b inside
    have joined := ih (unionBox first c)
    rcases mem_cons.mp inside with rfl | later
    · exact (le_unionBox_left b c).trans (joined _ (mem_cons_self ..))
    · rcases mem_cons.mp later with rfl | rest
      · exact (le_unionBox_right first b).trans (joined _ (mem_cons_self ..))
      · exact joined b (mem_cons_of_mem _ rest)

theorem le_regionForCluster {c : Cluster} (each : ∀ b ∈ c.boxes, Inside frame b)
    (inside : b ∈ c.boxes) : b ≤ regionForCluster frame config c :=
  (le_hull c.others c.first b inside).trans
    (le_calculateRegion (hull_inside c.others (each _ (mem_cons_self ..))
      fun d later => each d (mem_cons_of_mem _ later)) _ _)

/-- What a cluster takes up: it keeps its boxes, and the indexes that it uses are those of its
new boxes. -/
structure Cresce (visits : List (Box × ℕ)) (s t : Cluster × List ℕ) : Prop where
  kept : ∀ b ∈ s.1.boxes, b ∈ t.1.boxes
  used : ∀ i ∈ s.2, i ∈ t.2
  new : ∀ i ∈ t.2, i ∈ s.2 ∨ ∃ b, (b, i) ∈ visits ∧ b ∈ t.1.boxes
  from_ : ∀ b ∈ t.1.boxes, b ∈ s.1.boxes ∨ ∃ i, (b, i) ∈ visits

theorem Cresce.refl (visits : List (Box × ℕ)) (s : Cluster × List ℕ) : Cresce visits s s :=
  ⟨fun _ own => own, fun _ own => own, fun _ own => .inl own, fun _ own => .inl own⟩

variable (boundary : Box)

theorem tryBox_cresce (s : Cluster × List ℕ) (visit : Box × ℕ) :
    Cresce [visit] s (tryBox frame config boundary s visit) := by
  unfold tryBox
  split
  · exact .refl _ s
  · split
    · exact .refl _ s
    · simp only
      split
      · constructor
        · intro b own
          rcases mem_cons.mp own with rfl | other
          · exact mem_cons_self ..
          · exact mem_cons_of_mem _ (mem_append_left _ other)
        · exact fun i own => mem_append_left _ own
        · intro i own
          rcases mem_append.mp own with old | last
          · exact .inl old
          · obtain rfl := mem_singleton.mp last
            exact .inr ⟨visit.1, mem_cons_self ..,
              mem_cons_of_mem _ (mem_append_right _ (mem_cons_self ..))⟩
        · intro b own
          rcases mem_cons.mp own with rfl | other
          · exact .inl (mem_cons_self ..)
          · rcases mem_append.mp other with old | last
            · exact .inl (mem_cons_of_mem _ old)
            · obtain rfl := mem_singleton.mp last
              exact .inr ⟨visit.2, mem_cons_self ..⟩
      · exact .refl _ s

theorem tryBoxes_cresce (visits : List (Box × ℕ)) (s : Cluster × List ℕ) :
    Cresce visits s (visits.foldl (tryBox frame config boundary) s) := by
  induction visits generalizing s with
  | nil => exact .refl _ s
  | cons visit visits ih =>
    have first : Cresce [visit] s (tryBox frame config boundary s visit) :=
      tryBox_cresce boundary s visit
    have later := ih (tryBox frame config boundary s visit)
    constructor
    · exact fun b own => later.kept b (first.kept b own)
    · exact fun i own => later.used i (first.used i own)
    · intro i own
      rcases later.new i own with before | ⟨b, listed, inside⟩
      · rcases first.new i before with old | ⟨b, listed, inside⟩
        · exact .inl old
        · obtain rfl := mem_singleton.mp listed
          exact .inr ⟨b, mem_cons_self .., later.kept b inside⟩
      · exact .inr ⟨b, mem_cons_of_mem _ listed, inside⟩
    · intro b own
      rcases later.from_ b own with before | ⟨i, listed⟩
      · rcases first.from_ b before with old | ⟨i, listed⟩
        · exact .inl old
        · obtain rfl := mem_singleton.mp listed
          exact .inr ⟨i, mem_cons_self ..⟩
      · exact .inr ⟨i, mem_cons_of_mem _ listed⟩

/-- The used boxes are in a cluster, and a cluster holds only boxes that there are. -/
structure Agrupa (boxes : List Box) (s : List Cluster × List ℕ) : Prop where
  held : ∀ b i, (b, i) ∈ boxes.zipIdx → i ∈ s.2 → ∃ c ∈ s.1, b ∈ c.boxes
  members : ∀ c ∈ s.1, ∀ b ∈ c.boxes, b ∈ boxes

variable (frame config) in
theorem openCluster_agrupa {boxes : List Box} {s : List Cluster × List ℕ} (before : Agrupa boxes s)
    {current : Box × ℕ} (listed : current ∈ boxes.zipIdx) :
    Agrupa boxes (openCluster frame config boxes s current) ∧
      (∀ i ∈ s.2, i ∈ (openCluster frame config boxes s current).2) ∧
      current.2 ∈ (openCluster frame config boxes s current).2 := by
  unfold openCluster
  split
  · rename_i used
    exact ⟨before, fun _ own => own, used⟩
  · have grown : Cresce boxes.zipIdx (⟨current.1, []⟩, s.2 ++ [current.2])
        (boxes.zipIdx.foldl (tryBox frame config (clusterBoundary current.1 config.minSize))
          (⟨current.1, []⟩, s.2 ++ [current.2])) := tryBoxes_cresce _ _ _
    have same : ∀ b i, (b, i) ∈ boxes.zipIdx → ∀ d, (d, i) ∈ boxes.zipIdx → d = b := by
      intro b i one d two
      have first := List.mk_mem_zipIdx_iff_getElem?.mp one
      have second := List.mk_mem_zipIdx_iff_getElem?.mp two
      exact Option.some.inj (second.symm.trans first)
    refine ⟨⟨fun b i inside used => ?_, fun c own b inside => ?_⟩, fun i own => ?_, ?_⟩
    · rcases grown.new i used with earlier | ⟨d, known, member⟩
      · rcases mem_append.mp earlier with old | now
        · obtain ⟨c, own, member⟩ := before.held b i inside old
          exact ⟨c, mem_append_left _ own, member⟩
        · obtain rfl := mem_singleton.mp now
          obtain rfl := same b current.2 inside current.1 listed
          exact ⟨_, mem_append_right _ (mem_cons_self ..), grown.kept _ (mem_cons_self ..)⟩
      · obtain rfl := same b i inside d known
        exact ⟨_, mem_append_right _ (mem_cons_self ..), member⟩
    · rcases mem_append.mp own with old | new
      · exact before.members c old b inside
      · obtain rfl := mem_singleton.mp new
        rcases grown.from_ b inside with first | ⟨i, known⟩
        · obtain rfl := mem_singleton.mp first
          exact fst_mem_of_mem_zipIdx listed
        · exact fst_mem_of_mem_zipIdx known
    · exact grown.used i (mem_append_left _ own)
    · exact grown.used _ (mem_append_right _ (mem_cons_self ..))

variable (frame config) in
theorem openClusters_agrupa {boxes : List Box} (visits : List (Box × ℕ))
    (listed : ∀ visit ∈ visits, visit ∈ boxes.zipIdx) {s : List Cluster × List ℕ}
    (before : Agrupa boxes s) : Agrupa boxes (visits.foldl (openCluster frame config boxes) s) ∧
      (∀ i ∈ s.2, i ∈ (visits.foldl (openCluster frame config boxes) s).2) ∧
      ∀ visit ∈ visits, visit.2 ∈ (visits.foldl (openCluster frame config boxes) s).2 := by
  induction visits generalizing s with
  | nil => exact ⟨before, fun _ own => own, nofun⟩
  | cons visit visits ih =>
    obtain ⟨first, used, now⟩ := openCluster_agrupa frame config before
      (listed visit (mem_cons_self ..))
    obtain ⟨later, usedLater, each⟩ :=
      ih (fun other own => listed other (mem_cons_of_mem _ own)) first
    refine ⟨later, fun i own => usedLater i (used i own), fun other own => ?_⟩
    rcases mem_cons.mp own with rfl | rest
    · exact usedLater _ now
    · exact each other rest

variable (frame config) in
theorem clusterBoxes_agrupa (boxes : List Box) :
    (∀ b ∈ boxes, ∃ c ∈ clusterBoxes frame boxes config, b ∈ c.boxes) ∧
      ∀ c ∈ clusterBoxes frame boxes config, ∀ b ∈ c.boxes, b ∈ boxes := by
  have none_ : Agrupa boxes (([], []) : List Cluster × List ℕ) := ⟨fun _ _ _ => nofun, nofun⟩
  obtain ⟨grouped, -, each⟩ :=
    openClusters_agrupa frame config boxes.zipIdx (fun visit own => own) none_
  refine ⟨fun b inside => ?_, grouped.members⟩
  obtain ⟨i, within, rfl⟩ := mem_iff_getElem.mp inside
  have listed : (boxes[i], i) ∈ boxes.zipIdx :=
    List.mk_mem_zipIdx_iff_getElem?.mpr (List.getElem?_eq_getElem within)
  exact grouped.held _ i listed (each _ listed)

/-! The regions. -/

/-- What is inside one of the regions. -/
def Covered (regions : List Box) (b : Box) : Prop := ∃ region ∈ regions, b ≤ region

variable {regions : List Box}

theorem mem_dedupeRegions {region : Box} (own : region ∈ dedupeRegions regions) :
    region ∈ regions :=
  mem_eraseDups.mp (mem_filter.mp own).1

theorem dedupeRegions_covered {region : Box} (own : region ∈ regions) :
    Covered (dedupeRegions regions) region := by
  obtain ⟨greatest, above, maximal⟩ :=
    regions.toFinset.finite_toSet.exists_le_maximal (a := region)
      (Finset.mem_coe.mpr (mem_toFinset.mpr own))
  refine ⟨greatest, mem_filter.mpr ⟨mem_eraseDups.mpr ?_, ?_⟩, above⟩
  · exact mem_toFinset.mp (Finset.mem_coe.mp maximal.prop)
  · rw [Bool.not_eq_true', any_eq_false]
    intro other listed larger
    rw [Bool.and_eq_true, decide_eq_true_iff] at larger
    have there : other ∈ (regions.toFinset : Set Box) :=
      Finset.mem_coe.mpr (mem_toFinset.mpr (mem_eraseDups.mp listed))
    have back : other ≤ greatest := maximal.le_of_ge there larger.2
    exact larger.1 (le_antisymm back larger.2)

/-! The cap. -/

variable {current : List Box}

theorem mem_fusoes {f : Fusao} (own : f ∈ fusoes current) :
    f.i < f.j ∧ f.j < current.length ∧ ∃ a b, current[f.i]? = some a ∧ current[f.j]? = some b ∧
      f.merged = unionBox a b := by
  obtain ⟨⟨i, j⟩, listed, made⟩ := mem_filterMap.mp own
  obtain ⟨less, within⟩ := IndexPairs.mem_below.mp listed
  dsimp only at made
  split at made
  · rename_i a b first second
    obtain rfl := Option.some.inj made
    exact ⟨less, within, a, b, first, second, rfl⟩
  · cases made

theorem fusoes_ne_nil (two : 2 ≤ current.length) : fusoes current ≠ [] := by
  have pair : (0, 1) ∈ IndexPairs.below current.length := IndexPairs.mem_below.mpr ⟨by decide, two⟩
  obtain ⟨a, first⟩ : ∃ a, current[0]? = some a := ⟨_, List.getElem?_eq_getElem (by omega)⟩
  obtain ⟨b, second⟩ : ∃ b, current[1]? = some b := ⟨_, List.getElem?_eq_getElem (by omega)⟩
  refine ne_nil_of_mem (mem_filterMap.mpr
    ⟨(0, 1), pair, (?_ : _ = some ⟨area (unionBox a b), 0, 1, unionBox a b⟩)⟩)
  simp only [first, second]

/-- Two regions become one. -/
theorem length_mergeAt {f : Fusao} (own : f ∈ fusoes current) :
    (mergeAt frame config current f).length + 1 = current.length := by
  obtain ⟨less, within, -⟩ := mem_fusoes own
  have left : ((current.zipIdx.filter fun p =>
      decide (p.2 ≠ f.i) && decide (p.2 ≠ f.j)).map Prod.snd) =
        ((List.range current.length).erase f.i).erase f.j := by
    rw [(nodup_range.erase _).erase_eq_filter, nodup_range.erase_eq_filter,
      filter_filter, range_eq_range', ← zipIdx_map_snd, filter_map]
    refine congrArg _ (filter_congr fun p _ => ?_)
    simp only [Function.comp_apply, bne, Bool.and_comm, ← decide_not, beq_eq_decide]
  have sizes := congrArg List.length left
  have member : f.j ∈ (List.range current.length).erase f.i :=
    (mem_erase_of_ne (by omega)).mpr (mem_range.mpr within)
  rw [length_map, length_erase_of_mem member,
    length_erase_of_mem (mem_range.mpr (by omega)), length_range] at sizes
  unfold mergeAt
  rw [length_append, length_map, length_singleton, sizes]
  omega

theorem mergeAt_inside (roomy : Roomy frame) (f : Fusao) (each : ∀ b ∈ current, Inside frame b) :
    ∀ b ∈ mergeAt frame config current f, Inside frame b := by
  intro b own
  rcases mem_append.mp own with rest | last
  · obtain ⟨p, kept, rfl⟩ := mem_map.mp rest
    exact each _ (fst_mem_of_mem_zipIdx (mem_filter.mp kept).1)
  · obtain rfl := mem_singleton.mp last
    exact calculateRegion_inside roomy _ _ _

theorem mergeAt_covered {f : Fusao} (own : f ∈ fusoes current)
    (each : ∀ b ∈ current, Inside frame b) (covered : Covered current b) :
    Covered (mergeAt frame config current f) b := by
  obtain ⟨-, -, one, two, first, second, merged⟩ := mem_fusoes own
  have inside : Inside frame f.merged := merged ▸
    (each one (List.mem_of_getElem? first)).unionBox (each two (List.mem_of_getElem? second))
  have last : ∀ c, c ≤ f.merged → Covered (mergeAt frame config current f) c := fun c below =>
    ⟨_, mem_append_right _ (mem_cons_self ..), below.trans (le_calculateRegion inside _ _)⟩
  obtain ⟨region, there, below⟩ := covered
  obtain ⟨k, place⟩ := List.getElem?_of_mem there
  by_cases atI : k = f.i
  · obtain rfl := Option.some.inj ((atI ▸ place).symm.trans first)
    exact last b (below.trans (merged ▸ le_unionBox_left _ _))
  · by_cases atJ : k = f.j
    · obtain rfl := Option.some.inj ((atJ ▸ place).symm.trans second)
      exact last b (below.trans (merged ▸ le_unionBox_right _ _))
    · refine ⟨region, mem_append_left _ (mem_map.mpr ⟨(region, k), ?_, rfl⟩), below⟩
      exact mem_filter.mpr ⟨List.mk_mem_zipIdx_iff_getElem?.mpr place, by simp [atI, atJ]⟩

variable (config) in
/-- The most regions that the loop stops at. -/
def limit : ℕ := (max 1 config.maxRegions).toNat

variable (config) in
theorem capLoop_spec (roomy : Roomy frame) (guard : ℕ) (each : ∀ b ∈ current, Inside frame b) :
    (∀ b ∈ capLoop frame config guard current, Inside frame b) ∧
      (∀ b, Covered current b → Covered (capLoop frame config guard current) b) ∧
      (capLoop frame config guard current).length =
        if current.length ≤ limit config then current.length
        else max (limit config) (current.length - guard) := by
  induction guard generalizing current with
  | zero =>
    refine ⟨each, fun _ own => own, ?_⟩
    change current.length = _
    split
    · rfl
    · omega
  | succ guard ih =>
    have small : (current.length : ℤ) ≤ max 1 config.maxRegions ↔
        current.length ≤ limit config := by
      unfold limit
      omega
    unfold capLoop
    split
    · rename_i few
      exact ⟨each, fun _ own => own, (if_pos (small.mp few)).symm⟩
    · rename_i many
      rw [small] at many
      split
      · rename_i none_
        exact absurd ((FirstBest.best_eq_none _).mp none_) (fusoes_ne_nil (by omega))
      · rename_i f found
        have own : f ∈ fusoes current :=
          (FirstBest.foldl_mem _ _ none f found).resolve_right nofun
        have shorter : (mergeAt frame config current f).length + 1 = current.length :=
          length_mergeAt own
        obtain ⟨inside, covered, length⟩ := ih (mergeAt_inside roomy f each)
        refine ⟨inside, fun b before => covered b (mergeAt_covered own each before), ?_⟩
        rw [length, if_neg many]
        split <;> omega

variable (config) in
theorem proposed_inside (roomy : Roomy frame) (valid : List Box) :
    ∀ b ∈ proposed frame valid config, Inside frame b := by
  intro b own
  obtain ⟨c, -, rfl⟩ := mem_map.mp (mem_dedupeRegions own)
  exact calculateRegion_inside roomy _ _ _

variable (config) in
theorem proposed_covered {valid : List Box} (each : ∀ b ∈ valid, Inside frame b) :
    ∀ b ∈ valid, Covered (proposed frame valid config) b := by
  intro b own
  obtain ⟨held, members⟩ := clusterBoxes_agrupa frame config valid
  obtain ⟨c, listed, inside⟩ := held b own
  obtain ⟨region, kept, above⟩ := dedupeRegions_covered
    (mem_map_of_mem (f := regionForCluster frame config) listed)
  exact ⟨region, kept,
    (le_regionForCluster (fun d member => each d (members c listed d member)) inside).trans above⟩

/-- How many regions there are when `n` were proposed: the loop's guard lets it merge a thousand
times. -/
def capped (config : RegionConfig) (n : ℕ) : ℕ :=
  if n ≤ limit config then n else max (limit config) (n - 1000)

variable (config) in
theorem buildRegions_spec (roomy : Roomy frame) (boxes : List (List (Option ℚ))) :
    (∀ box ∈ boxes, ∀ b, clipBox box frame = some b →
      Covered (buildRegions frame boxes config) b) ∧
      (∀ b ∈ buildRegions frame boxes config, Inside frame b) ∧
      (buildRegions frame boxes config).length = capped config
        (proposed frame (boxes.filterMap fun box => clipBox box frame) config).length := by
  have valid : ∀ b ∈ boxes.filterMap fun box => clipBox box frame, Inside frame b := by
    intro b own
    obtain ⟨box, _, clipped⟩ := mem_filterMap.mp own
    exact clipBox_inside clipped
  have member : ∀ box ∈ boxes, ∀ b, clipBox box frame = some b →
      b ∈ boxes.filterMap fun box => clipBox box frame := fun box own b clipped =>
    mem_filterMap.mpr ⟨box, own, clipped⟩
  unfold buildRegions
  generalize (boxes.filterMap fun box => clipBox box frame) = boxes' at valid member ⊢
  by_cases empty : boxes'.isEmpty = true
  · obtain rfl := List.isEmpty_iff.mp empty
    refine ⟨fun box own b clipped => absurd (member box own b clipped) not_mem_nil, nofun, ?_⟩
    exact (if_pos (Nat.zero_le _)).symm
  · obtain ⟨inside, covered, length⟩ :=
      capLoop_spec config roomy 1000 (proposed_inside config roomy boxes')
    have sorted := perm_insertionSort tupleLe
      (capRegions frame (proposed frame boxes' config) config)
    simp only [if_neg empty]
    refine ⟨fun box own b clipped => ?_, fun b own => inside b (sorted.mem_iff.mp own), ?_⟩
    · obtain ⟨region, there, below⟩ :=
        covered b (proposed_covered config valid b (member box own b clipped))
      exact ⟨region, sorted.mem_iff.mpr there, below⟩
    · rw [sorted.length_eq]
      exact length

/-- With the configuration that the loader makes. -/
theorem buildRegions_loaded (env : Env) (frame : FrameShape) (wide : 4 ≤ frame.w)
    (high : 4 ≤ frame.h) (boxes : List (List (Option ℚ))) : let config := fromEnv env
    let regions := buildRegions frame boxes config
    let n := (proposed frame (boxes.filterMap fun box => clipBox box frame) config).length
    (∀ box ∈ boxes, ∀ b, clipBox box frame = some b →
      ∃ region ∈ regions, boxInside region b = true) ∧
    (∀ region ∈ regions, 0 ≤ region.x1 ∧ 0 ≤ region.y1 ∧ region.x2 ≤ frame.w ∧
      region.y2 ≤ frame.h) ∧
    ((n : ℤ) ≤ config.maxRegions + 1000 → (regions.length : ℤ) ≤ config.maxRegions) ∧
    (config.maxRegions + 1000 < n → regions.length = n - 1000) := by
  obtain ⟨covered, inside, length⟩ :=
    buildRegions_spec (fromEnv env) ⟨wide, high⟩ boxes
  have bounds : 1 ≤ (fromEnv env).maxRegions ∧ (fromEnv env).maxRegions ≤ 32 :=
    envInt_bounds env "GENERAL_REGION_MAX" (by decide) (by decide)
  have most : limit (fromEnv env) = (fromEnv env).maxRegions := by
    unfold limit
    omega
  refine ⟨covered, fun region own => ?_, fun few => ?_, fun many => ?_⟩
  · obtain ⟨left, top, right, bottom, -, -⟩ := inside region own
    exact ⟨left, top, right, bottom⟩
  all_goals
    rw [length]
    unfold capped
    split <;> omega

/-! Boxes that stand too far from one another. -/

theorem tryBoxes_apart (visits : List (Box × ℕ)) (s : Cluster × List ℕ)
    (apart : ∀ v ∈ visits, v.2 ∈ s.2 ∨ boxInside boundary v.1 = false) :
    visits.foldl (tryBox frame config boundary) s = s := by
  induction visits with
  | nil => rfl
  | cons v visits ih =>
    have same : tryBox frame config boundary s v = s := by
      unfold tryBox
      rcases apart v (mem_cons_self ..) with used | outside
      · rw [if_pos used]
      · rw [outside]
        split <;> rfl
    rw [foldl_cons, same]
    exact ih fun w own => apart w (mem_cons_of_mem _ own)

variable (frame config) in
theorem openClusters_apart {boxes : List Box}
    (apart : ∀ a ∈ boxes.zipIdx, ∀ b ∈ boxes.zipIdx, a.2 ≠ b.2 →
      boxInside (clusterBoundary a.1 config.minSize) b.1 = false)
    (visits : List (Box × ℕ)) (listed : ∀ v ∈ visits, v ∈ boxes.zipIdx)
    (distinct : (visits.map Prod.snd).Nodup) (s : List Cluster × List ℕ)
    (new : ∀ v ∈ visits, v.2 ∉ s.2) : (visits.foldl (openCluster frame config boxes) s).1 =
      s.1 ++ visits.map fun v => ⟨v.1, []⟩ := by
  induction visits generalizing s with
  | nil => exact (append_nil _).symm
  | cons v visits ih =>
    obtain ⟨fresh, distinct⟩ := nodup_cons.mp distinct
    have alone : openCluster frame config boxes s v = (s.1 ++ [⟨v.1, []⟩], s.2 ++ [v.2]) := by
      unfold openCluster
      rw [if_neg (new v (mem_cons_self ..))]
      dsimp only
      rw [tryBoxes_apart]
      intro w own
      by_cases same : v.2 = w.2
      · exact .inl (same ▸ mem_append_right _ (mem_cons_self ..))
      · exact .inr (apart v (listed v (mem_cons_self ..)) w own same)
    rw [foldl_cons, alone, ih (fun w own => listed w (mem_cons_of_mem _ own)) distinct,
      append_assoc]
    · rfl
    · intro w own used
      rcases mem_append.mp used with old | last
      · exact new w (mem_cons_of_mem _ own) old
      · rw [mem_singleton] at last
        exact fresh (last ▸ mem_map_of_mem own)

theorem clusterBoxes_apart {boxes : List Box}
    (apart : ∀ a ∈ boxes.zipIdx, ∀ b ∈ boxes.zipIdx, a.2 ≠ b.2 →
      boxInside (clusterBoundary a.1 config.minSize) b.1 = false) :
    clusterBoxes frame boxes config = boxes.map fun b => ⟨b, []⟩ := by
  have indexes : (boxes.zipIdx.map Prod.snd).Nodup := by
    rw [zipIdx_map_snd]
    exact nodup_range'
  refine (openClusters_apart frame config apart boxes.zipIdx (fun v own => own) indexes ([], [])
    fun v _ => not_mem_nil).trans ?_
  have firsts := congrArg (List.map fun b => (⟨b, []⟩ : Cluster)) (zipIdx_map_fst 0 boxes)
  rw [map_map] at firsts
  exact firsts

theorem eraseDups_of_nodup (distinct : regions.Nodup) : regions.eraseDups = regions := by
  induction regions with
  | nil => rfl
  | cons region regions ih =>
    obtain ⟨fresh, distinct⟩ := nodup_cons.mp distinct
    have rest : regions.filter (fun b => !b == region) = regions := by
      rw [filter_eq_self]
      intro other own
      rw [Bool.not_eq_true', beq_eq_false_iff_ne]
      rintro rfl
      exact fresh own
    rw [eraseDups_cons, rest, ih distinct]

theorem dedupeRegions_antichain (distinct : regions.Nodup)
    (apart : ∀ a ∈ regions, ∀ b ∈ regions, boxInside a b = true → a = b) :
    dedupeRegions regions = regions := by
  unfold dedupeRegions
  rw [eraseDups_of_nodup distinct]
  rw [filter_eq_self]
  intro region own
  rw [Bool.not_eq_true', any_eq_false]
  intro other listed larger
  rw [Bool.and_eq_true, decide_eq_true_iff] at larger
  exact larger.1 (apart other listed region own larger.2)

theorem trunc_intCast (n : ℤ) : trunc n = n := by
  unfold trunc
  rw [Int.floor_intCast, Int.ceil_intCast, ite_self]

/-- Boxes of four pixels that stand forty pixels apart, in 27 rows of 48. -/
def caixa (k : ℕ) : Box := ⟨40 * (k % 48 : ℕ), 40 * (k / 48 : ℕ), 40 * (k % 48 : ℕ) + 4,
  40 * (k / 48 : ℕ) + 4⟩

def quadro : FrameShape := ⟨1080, 1920⟩

/-- Only `GENERAL_REGION_MIN_SIZE` is set, to the least size there is. -/
def ambiente : Env where
  text name := if name = "GENERAL_REGION_MIN_SIZE" then "32" else ""
  int raw := if raw = "32" then some 32 else none
  float _ := none

theorem ambiente_config : (fromEnv ambiente).minSize = 32 ∧
    (fromEnv ambiente).margin = double (135 / 100) ∧ (fromEnv ambiente).maxRegions = 4 := by
  refine ⟨?_, ?_, ?_⟩ <;> simp [fromEnv, envInt, envFloat, ambiente, clamp]

theorem caixa_inside {k : ℕ} (within : k < 1296) : Inside quadro (caixa k) := by
  constructor <;> simp only [caixa, quadro] <;> omega

theorem double_small {n : ℤ} (low : -4000 ≤ n) (high : n ≤ 4000) : double n = n :=
  Binary64.double_intCast (abs_lt.mpr ⟨by omega, by omega⟩)

theorem caixa_boundary {k : ℕ} (within : k < 1296) : clusterBoundary (caixa k) 32 =
    ⟨(caixa k).x1 - 27, (caixa k).y1 - 27, (caixa k).x1 + 31, (caixa k).y1 + 31⟩ := by
  obtain ⟨left, top, right, bottom, -, -⟩ := caixa_inside within
  have width : (caixa k).x2 - (caixa k).x1 = 4 := by
    simp only [caixa]
    omega
  have height : (caixa k).y2 - (caixa k).y1 = 4 := by
    simp only [caixa]
    omega
  have half : double (((4 : ℤ) : ℚ) / 2) = 2 := by decide +kernel
  have root : Nat.sqrt ⌊double ((((4 : ℤ) * 4).natAbs : ℚ) / double (1 / 10))⌋.toNat = 12 := by
    decide +kernel
  have reach : trunc (double (((max 32 ((12 : ℕ) : ℤ) : ℤ) : ℚ) - double (2 * double (11 / 10)))) =
      29 := by
    decide +kernel
  have middle : ∀ n : ℤ, 0 ≤ n → n ≤ 1920 →
      trunc (double (double (2 + (n : ℚ)) - ((29 : ℤ) : ℚ))) = n - 27 ∧
        trunc (double (double (2 + (n : ℚ)) + ((29 : ℤ) : ℚ))) = n + 31 := by
    intro n low high
    have centre : double (2 + (n : ℚ)) = ((n + 2 : ℤ) : ℚ) := by
      rw [← double_small (n := n + 2) (by omega) (by omega)]
      push_cast
      rw [add_comm]
    rw [centre, ← Int.cast_sub, ← Int.cast_add, double_small (by omega) (by omega),
      double_small (by omega) (by omega), trunc_intCast, trunc_intCast]
    omega
  simp only [quadro] at right bottom
  obtain ⟨x1, x2⟩ := middle (caixa k).x1 left (by omega)
  obtain ⟨y1, y2⟩ := middle (caixa k).y1 top (by omega)
  unfold clusterBoundary
  simp only [width, height, half, root, reach, x1, x2, y1, y2]

/-- The region of a box alone: 32 pixels, moved in from the left and the upper border. -/
def regiao (k : ℕ) : Box :=
  let x := max 0 ((caixa k).x1 - 14)
  let y := max 0 ((caixa k).y1 - 14)
  ⟨x, y, x + 32, y + 32⟩

theorem caixa_region {k : ℕ} (within : k < 1296) :
    regionForCluster quadro (fromEnv ambiente) ⟨caixa k, []⟩ = regiao k := by
  obtain ⟨minSize, margin, -⟩ := ambiente_config
  have least : side (caixa k) 32 (double (135 / 100)) = 32 := by
    have width : (caixa k).x2 - (caixa k).x1 = 4 := by
      simp only [caixa]
      omega
    have height : (caixa k).y2 - (caixa k).y1 = 4 := by
      simp only [caixa]
      omega
    unfold side
    rw [width, height]
    decide +kernel
  have whole : square quadro (caixa k) 32 = regiao k := by
    have half : ∀ n : ℤ, (40 * n + (40 * n + 4) - 32).tdiv 2 = 40 * n - 14 := by
      intro n
      have twice : 40 * n + (40 * n + 4) - 32 = 2 * (40 * n - 14) := by ring
      rw [twice, Int.mul_tdiv_cancel_left _ (by decide)]
    have width : max (4 : ℤ) (min 32 1920) = 32 := by decide
    have height : max (4 : ℤ) (min 32 1080) = 32 := by decide
    unfold square regiao
    simp only [caixa, quadro, width, height, half]
    ext <;> simp only <;> omega
  have source : boxInside (regiao k) (caixa k) = true := by
    rw [boxInside_iff]
    simp only [regiao, caixa]
    omega
  unfold regionForCluster calculateRegion
  rw [minSize, margin, foldl_nil, least, whole, clipBox_values (caixa_inside within)]
  dsimp only
  rw [source]
  rfl

def caixas : List Box := (List.range 1296).map caixa

/-- The motion boxes as they come. -/
def grade : List (List (Option ℚ)) := caixas.map Box.values

theorem grade_valid : (grade.filterMap fun box => clipBox box quadro) = caixas := by
  unfold grade caixas
  rw [map_map, filterMap_map]
  rw [← filterMap_eq_map]
  exact filterMap_congr fun k own =>
    clipBox_values (caixa_inside (mem_range.mp own))

theorem grade_proposed : (proposed quadro caixas (fromEnv ambiente)).length = 1296 := by
  have apart : ∀ a ∈ caixas.zipIdx, ∀ b ∈ caixas.zipIdx, a.2 ≠ b.2 →
      boxInside (clusterBoundary a.1 (fromEnv ambiente).minSize) b.1 = false := by
    rintro ⟨a, i⟩ one ⟨b, j⟩ two differ
    have first := List.mk_mem_zipIdx_iff_getElem?.mp one
    have second := List.mk_mem_zipIdx_iff_getElem?.mp two
    unfold caixas at first second
    rw [List.getElem?_map] at first second
    obtain ⟨i', atI, rfl⟩ := Option.map_eq_some_iff.mp first
    obtain ⟨j', atJ, rfl⟩ := Option.map_eq_some_iff.mp second
    obtain ⟨lessI, sameI⟩ := List.getElem?_eq_some_iff.mp atI
    obtain ⟨lessJ, sameJ⟩ := List.getElem?_eq_some_iff.mp atJ
    rw [getElem_range] at sameI sameJ
    rw [length_range] at lessI
    rw [ambiente_config.1, caixa_boundary (sameI ▸ lessI), Bool.eq_false_iff, Ne, boxInside_iff]
    simp only [caixa]
    omega
  have regions : (caixas.map fun b => (⟨b, []⟩ : Cluster)).map
      (regionForCluster quadro (fromEnv ambiente)) = (List.range 1296).map regiao := by
    unfold caixas
    rw [map_map, map_map]
    exact map_congr_left fun k own => caixa_region (mem_range.mp own)
  have same : ∀ i j, boxInside (regiao i) (regiao j) = true → i = j := by
    intro i j inside
    rw [boxInside_iff] at inside
    simp only [regiao, caixa] at inside
    omega
  unfold proposed
  rw [clusterBoxes_apart apart, regions, dedupeRegions_antichain]
  · rw [length_map, length_range]
  · refine nodup_range.map fun i j equal => same i j ?_
    rw [equal]
    exact boxInside_iff.mpr ⟨le_rfl, le_rfl, le_rfl, le_rfl⟩
  · intro a one b two inside
    obtain ⟨i, -, rfl⟩ := mem_map.mp one
    obtain ⟨j, -, rfl⟩ := mem_map.mp two
    rw [same i j inside]

/-- The thousand merges are not enough. -/
theorem buildRegions_grade : ¬((buildRegions quadro grade (fromEnv ambiente)).length : ℤ) ≤
      (fromEnv ambiente).maxRegions := by
  obtain ⟨-, -, length⟩ :=
    buildRegions_spec (fromEnv ambiente) (⟨by decide, by decide⟩ : Roomy quadro) grade
  obtain ⟨-, -, most⟩ := ambiente_config
  have four : limit (fromEnv ambiente) = 4 := by
    rfl
  rw [length, grade_valid, grade_proposed, most, capped, four]
  decide

/-- A person far away, in a frame of 1080 lines. -/
theorem buildRegions_person :
    ∃ region ∈ buildRegions quadro [(⟨900, 500, 940, 560⟩ : Box).values] (fromEnv ambiente),
      boxInside region ⟨900, 500, 940, 560⟩ = true :=
  (buildRegions_loaded ambiente quadro (by decide) (by decide)
    [(⟨900, 500, 940, 560⟩ : Box).values]).1 _ (mem_singleton_self _) _
    (clipBox_values ⟨by decide, by decide, by decide, by decide, by decide, by decide⟩)

end DracVms.RegionProposal
