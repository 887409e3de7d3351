import DracVms.Detectors.MotionRegionPlanner
import DracVms.Detectors.RegionCoverage

namespace DracVms.RegionProposal

open List

/-! One object for each overlap. -/

theorem mem_keepNew (threshold : ℚ) (kept : List (Deteccao × ℕ)) (next : Deteccao × ℕ) :
    (∀ k ∈ kept, k ∈ keepNew threshold kept next) ∧
      ∃ k ∈ keepNew threshold kept next, k = next ∨ mesmoObjeto threshold k.1 next.1 = true := by
  unfold keepNew
  split
  · rename_i found
    obtain ⟨other, own, same⟩ := any_eq_true.mp found
    exact ⟨fun _ inside => inside, other, own, .inr same⟩
  · exact ⟨fun _ inside => mem_append_left _ inside, next,
      mem_append_right _ (mem_cons_self ..), .inl rfl⟩

theorem keepNew_represents {threshold : ℚ} (items kept : List (Deteccao × ℕ)) :
    (∀ k ∈ kept, k ∈ items.foldl (keepNew threshold) kept) ∧
      ∀ item ∈ items, ∃ k ∈ items.foldl (keepNew threshold) kept,
        k = item ∨ mesmoObjeto threshold k.1 item.1 = true := by
  induction items generalizing kept with
  | nil => exact ⟨fun _ inside => inside, nofun⟩
  | cons next items ih =>
    obtain ⟨grown, k, now, same⟩ := mem_keepNew threshold kept next
    obtain ⟨later, each⟩ := ih (keepNew threshold kept next)
    refine ⟨fun other inside => later other (grown other inside), fun item inside => ?_⟩
    rcases mem_cons.mp inside with rfl | rest
    · exact ⟨k, later k now, same⟩
    · exact each item rest

/-- An item is in the output, or one of its class that overlaps it as much. -/
def Representado (threshold : ℚ) (output : List Deteccao) (item : Deteccao) : Prop :=
  ∃ o ∈ output, o = item ∨ mesmoObjeto threshold o item = true

theorem dedupeByIou_represents (items : List Deteccao) (threshold : ℚ) :
    ∀ item ∈ items, Representado threshold (dedupeByIou items threshold) item := by
  intro item inside
  obtain ⟨i, place⟩ := List.getElem?_of_mem inside
  have listed : (item, i) ∈ items.zipIdx.insertionSort fun a b => b.1.confidence ≤ a.1.confidence :=
    (perm_insertionSort _ _).mem_iff.mpr (List.mk_mem_zipIdx_iff_getElem?.mpr place)
  obtain ⟨k, kept, same⟩ := (keepNew_represents _ []).2 _ listed
  refine ⟨k.1, mem_map_of_mem ((perm_insertionSort _ _).mem_iff.mpr kept), ?_⟩
  exact same.imp (congrArg Prod.fst) id

/-! The plan. -/

variable (config : RegionConfig)

variable {config} in
theorem Covered.mono {regions more : List Box} {b : Box} (covered : Covered regions b)
    (subset : ∀ region ∈ regions, region ∈ more) : Covered more b := by
  obtain ⟨region, own, above⟩ := covered
  exact ⟨region, subset region own, above⟩

theorem planned_covered {frame : FrameShape} (roomy : Roomy frame) {built forced : List Box}
    (inBuilt : ∀ b ∈ built, Inside frame b) (inForced : ∀ b ∈ forced, Inside frame b) {b : Box}
    (covered : Covered (built ++ forced) b) : Covered (planned config frame built forced) b := by
  unfold planned
  split
  · rename_i empty
    rwa [List.isEmpty_iff.mp empty, append_nil] at covered
  · have inside : ∀ b ∈ dedupeRegions (built ++ forced), Inside frame b := by
      intro region own
      rcases mem_append.mp (mem_dedupeRegions own) with one | two
      · exact inBuilt region one
      · exact inForced region two
    obtain ⟨region, own, above⟩ := covered
    obtain ⟨greater, left, higher⟩ := dedupeRegions_covered own
    have capped := (capLoop_spec config roomy 1000 inside).2.1 b ⟨greater, left, above.trans higher⟩
    exact capped.mono fun region own => (perm_insertionSort _ _).mem_iff.mpr own

theorem swept_covered (frame : FrameShape) (sweep : Bool) {regions : List Box} {b : Box}
    (covered : Covered regions b) : Covered (swept frame sweep regions) b := by
  unfold swept
  split
  · exact covered.mono fun region own => mem_append_left _ own
  · exact covered

variable {e : Entry}

theorem destino_pulado {regions boxes : List Box} {n : ℕ}
    (skipped : destino config regions boxes n e = .pulado) :
    (n : ℤ) - e.lastInfer < config.stationaryInterval := by
  unfold destino at skipped
  split at skipped
  · cases skipped
  · dsimp only at skipped
    split at skipped
    · rename_i reasons
      rw [Bool.and_eq_true, Bool.not_eq_true', decide_eq_false_iff_not, not_le] at reasons
      exact reasons.2
    · cases skipped

/-- The entry of a place, and what the plan made of it. -/
def Passada (p : Planner) (q : Quadro) (e : Entry) : Prop :=
  goes config p q.frame (q.motionBoxes.filterMap fun box => clipBox box q.frame) e = .pulado

instance (p : Planner) (q : Quadro) (e : Entry) : Decidable (Passada config p q e) :=
  inferInstanceAs (Decidable (_ = Destino.pulado))

variable {p : Planner} {q : Quadro}

theorem plan_covered (roomy : Roomy q.frame) (own : e ∈ p.entries) (inside : Inside q.frame e.box) :
    Passada config p q e ∨ Covered (plan config p q.frame q.motionBoxes).2.regions e.box := by
  unfold Passada plan
  dsimp only
  generalize (q.motionBoxes.filterMap fun box => clipBox box q.frame) = boxes
  by_cases skipped : goes config p q.frame boxes e = .pulado
  · exact .inl skipped
  right
  have inBuilt : ∀ b ∈ buildRegions q.frame (boxes.map Box.values) config, Inside q.frame b :=
    (buildRegions_spec config roomy (boxes.map Box.values)).2.1
  have inForced : ∀ b ∈ (p.entries.filter fun e =>
      decide (goes config p q.frame boxes e = .forcado)).map
        (fun e => calculateRegion q.frame e.box config.minSize config.margin),
      Inside q.frame b := by
    intro b forced
    obtain ⟨f, -, rfl⟩ := mem_map.mp forced
    exact calculateRegion_inside roomy _ _ _
  have covered : Covered (buildRegions q.frame (boxes.map Box.values) config ++
      (p.entries.filter fun e => decide (goes config p q.frame boxes e = .forcado)).map
        fun e => calculateRegion q.frame e.box config.minSize config.margin) e.box := by
    cases end_ : goes config p q.frame boxes e with
    | pulado => exact absurd end_ skipped
    | forcado =>
      refine ⟨_, mem_append_right _ (mem_map_of_mem (mem_filter.mpr
        ⟨own, decide_eq_true end_⟩)), le_calculateRegion inside _ _⟩
    | coberto =>
      unfold goes destino at end_
      split at end_
      · rename_i found
        obtain ⟨region, there, above⟩ := any_eq_true.mp found
        exact ⟨region, mem_append_left _ there, above⟩
      · dsimp only at end_
        split at end_ <;> cases end_
  obtain ⟨region, there, above⟩ := swept_covered q.frame (decide (0 < config.sweepEvery) &&
    decide ((((p.frameIndex + 1 : ℕ) : ℤ) - 1) % config.sweepEvery = 0))
    (planned_covered config roomy inBuilt inForced covered)
  refine ⟨region, ?_, above⟩
  rw [if_neg]
  · exact there
  · rw [Bool.and_eq_true, Bool.and_eq_true, List.isEmpty_iff]
    rintro ⟨⟨empty, -⟩, -⟩
    rw [empty] at there
    exact absurd there not_mem_nil

/-! The matching. -/

/-- What the matching of `fresh` keeps of the entries that there were. -/
structure Pareado (before : List Entry) (fresh : List Deteccao) (s : Pareamento) : Prop where
  length : before.length ≤ s.entries.length
  untouched : ∀ (j : ℕ) (e : Entry), before[j]? = some e → j ∉ s.matched.map Prod.fst →
    s.entries[j]? = some e
  matches_ : ∀ (j : ℕ) (item : Deteccao), (j, item) ∈ s.matched → item ∈ fresh ∧
    ∀ e, before[j]? = some e → e.classId = item.classId ∧
      config.matchIou ≤ intersectionOverUnion e.box item.bbox

variable {item : Deteccao}

theorem candidates_mem {s : Pareamento} {index : ℕ} {iou : ℚ}
    (own : (index, iou) ∈ candidates config s item) :
    ∃ e, s.entries[index]? = some e ∧ index ∉ s.matched.map Prod.fst ∧
      e.classId = item.classId ∧ config.matchIou ≤ intersectionOverUnion e.box item.bbox := by
  obtain ⟨⟨e, i⟩, listed, made⟩ := mem_filterMap.mp own
  dsimp only at made
  split at made
  · cases made
  · rename_i free
    split at made
    · rename_i enough
      obtain ⟨rfl, -⟩ := Prod.mk.inj (Option.some.inj made)
      rw [not_or, not_not] at free
      exact ⟨e, List.mk_mem_zipIdx_iff_getElem?.mp listed, free.1, free.2, enough.1⟩
    · cases made

variable {config} in
theorem Pareado.matchItem {before : List Entry} {fresh : List Deteccao} {s : Pareamento}
    (pairs : Pareado config before fresh s) (n : ℕ) (own : item ∈ fresh) :
    Pareado config before fresh (matchItem config n s item) := by
  unfold RegionProposal.matchItem
  split
  · rename_i index iou found
    have candidate : (index, iou) ∈ candidates config s item :=
      (FirstBest.foldl_mem _ _ none _ found).resolve_right nofun
    obtain ⟨e, place, free, sameClass, enough⟩ := candidates_mem config candidate
    constructor
    · rw [length_modify]
      exact pairs.length
    · intro j f here absent
      rw [map_append, mem_append, not_or] at absent
      have other : index ≠ j := fun same => absent.2 (same ▸ mem_cons_self ..)
      rw [List.getElem?_modify, pairs.untouched j f here absent.1]
      exact congrArg some (if_neg other)
    · intro j k listed
      rcases mem_append.mp listed with old | new
      · exact pairs.matches_ j k old
      · obtain ⟨rfl, rfl⟩ := Prod.mk.inj (mem_singleton.mp new)
        refine ⟨own, fun f here => ?_⟩
        obtain rfl := Option.some.inj (place.symm.trans (pairs.untouched j f here free))
        exact ⟨sameClass, enough⟩
  · constructor
    · rw [length_append]
      exact pairs.length.trans (Nat.le_add_right _ _)
    · intro j f here absent
      rw [map_append, mem_append, not_or] at absent
      have same := pairs.untouched j f here absent.1
      rw [List.getElem?_append_left (List.getElem?_eq_some_iff.mp same).1]
      exact same
    · intro j k listed
      rcases mem_append.mp listed with old | new
      · exact pairs.matches_ j k old
      · obtain ⟨rfl, rfl⟩ := Prod.mk.inj (mem_singleton.mp new)
        refine ⟨own, fun f here => ?_⟩
        have within := (List.getElem?_eq_some_iff.mp here).1
        have bound := pairs.length
        omega

theorem matchAll_pareado (n : ℕ) (before : List Entry) (fresh : List Deteccao) :
    Pareado config before fresh (matchAll config n before fresh) := by
  have each : ∀ (items : List Deteccao), (∀ item ∈ items, item ∈ fresh) → ∀ s : Pareamento,
      Pareado config before fresh s →
      Pareado config before fresh (items.foldl (matchItem config n) s) := by
    intro items
    induction items with
    | nil => exact fun _ s pairs => pairs
    | cons item items ih =>
      intro among s pairs
      exact ih (fun other rest => among other (mem_cons_of_mem _ rest)) _
        (pairs.matchItem n (among item (mem_cons_self ..)))
  exact each fresh (fun _ own => own) ⟨before, []⟩
    ⟨le_rfl, fun _ _ here _ => here, fun _ _ => nofun⟩

/-- What an entry says of itself in the cache of a frame. -/
structure Firme (n : ℕ) (e : Entry) : Prop where
  classId : e.payload.classId = e.classId
  seen : e.lastSeen = e.lastInfer
  past : e.lastInfer ≤ n

theorem matchItem_firme {n : ℕ} {s : Pareamento} (firm : ∀ e ∈ s.entries, Firme n e)
    (item : Deteccao) : ∀ e ∈ (matchItem config n s item).entries, Firme n e := by
  unfold matchItem
  split
  · rename_i index iou found
    have candidate : (index, iou) ∈ candidates config s item :=
      (FirstBest.foldl_mem _ _ none _ found).resolve_right nofun
    obtain ⟨e, place, -, sameClass, -⟩ := candidates_mem config candidate
    intro f own
    obtain ⟨j, here⟩ := List.getElem?_of_mem own
    rw [List.getElem?_modify] at here
    obtain ⟨g, there, rfl⟩ := Option.map_eq_some_iff.mp here
    have old := firm g (List.mem_of_getElem? there)
    split
    · rename_i same
      subst same
      obtain rfl := Option.some.inj (place.symm.trans there)
      exact ⟨sameClass.symm, rfl, le_rfl⟩
    · exact old
  · intro f own
    rcases mem_append.mp own with old | new
    · exact firm f old
    · obtain rfl := mem_singleton.mp new
      exact ⟨rfl, rfl, le_rfl⟩

theorem rodar_firme (firm : ∀ e ∈ p.entries, Firme p.frameIndex e) (q : Quadro) :
    ∀ e ∈ (rodar config p q).1.entries, Firme (rodar config p q).1.frameIndex e := by
  have start : ∀ e ∈ (plan config p q.frame q.motionBoxes).1.entries,
      Firme (p.frameIndex + 1) e := by
    intro e own
    obtain ⟨f, old, rfl⟩ := mem_map.mp own
    obtain ⟨classId, seen, past⟩ := firm f old
    split
    all_goals exact ⟨classId, seen, Nat.le_succ_of_le past⟩
  have each : ∀ (items : List Deteccao) (s : Pareamento),
      (∀ e ∈ s.entries, Firme (p.frameIndex + 1) e) →
      ∀ e ∈ (items.foldl (matchItem config (p.frameIndex + 1)) s).entries,
        Firme (p.frameIndex + 1) e := by
    intro items
    induction items with
    | nil => exact fun s firm => firm
    | cons item items ih => exact fun s firm => ih _ (matchItem_firme config firm item)
  intro e own
  obtain ⟨⟨f, i⟩, kept, rfl⟩ := mem_map.mp own
  exact each _ ⟨_, []⟩ start f (fst_mem_of_mem_zipIdx (mem_filter.mp kept).1)

theorem depois_firme (quadros : List Quadro) (firm : ∀ e ∈ p.entries, Firme p.frameIndex e) :
    ∀ e ∈ (depois config p quadros).entries, Firme (depois config p quadros).frameIndex e := by
  induction quadros generalizing p with
  | nil => exact firm
  | cons q quadros ih => exact ih (rodar_firme config firm q)

/-! One frame. -/

theorem plan_entries {j : ℕ} (own : p.entries[j]? = some e) :
    ∃ f, (plan config p q.frame q.motionBoxes).1.entries[j]? = some f ∧ f.box = e.box ∧
      f.classId = e.classId ∧ f.lastSeen = e.lastSeen ∧ f.lastInfer = e.lastInfer ∧
      (Passada config p q e → carry f ∈ (plan config p q.frame q.motionBoxes).2.carried ∧
        f = e.skip) := by
  unfold plan
  rw [List.getElem?_map, own]
  by_cases skipped : Passada config p q e
  · refine ⟨e.skip, congrArg some (if_pos skipped), rfl, rfl, rfl, rfl, fun _ => ⟨?_, rfl⟩⟩
    exact mem_map.mpr ⟨e, mem_filter.mpr ⟨List.mem_of_getElem? own, decide_eq_true skipped⟩, rfl⟩
  · exact ⟨e, congrArg some (if_neg skipped), rfl, rfl, rfl, rfl, fun now => absurd now skipped⟩

/-- The object of an entry in the output of a frame: the detection that was matched to it, or the
copy of an entry that was passed over. -/
def DeOnde (p : Planner) (q : Quadro) (j : ℕ) (e : Entry) (item : Deteccao) : Prop :=
  (j, item) ∈ (pareados config p q).matched ∨
    item ∈ (plan config p q.frame q.motionBoxes).2.carried ∧ item = carry e.skip

/-- A region that contains the entry was executed, and no detection was matched to it. -/
def SaiuDeCena (p : Planner) (q : Quadro) (j : ℕ) (e : Entry) : Prop :=
  (∃ region ∈ (plan config p q.frame q.motionBoxes).2.regions, boxInside region e.box = true) ∧
    j ∉ (pareados config p q).matched.map Prod.fst

theorem rodar_output (p : Planner) (q : Quadro) : (rodar config p q).2 =
      let fresh := dedupeByIou q.detections config.mergeIou
      let carried := (plan config p q.frame q.motionBoxes).2.carried
      if carried.isEmpty then fresh else dedupeByIou (fresh ++ carried) config.mergeIou := rfl

theorem output_represents
    (own : item ∈ dedupeByIou q.detections config.mergeIou ∨
      item ∈ (plan config p q.frame q.motionBoxes).2.carried) :
    Representado config.mergeIou (rodar config p q).2 item := by
  rw [rodar_output]
  dsimp only
  split
  · rename_i empty
    rw [List.isEmpty_iff.mp empty] at own
    exact ⟨item, own.resolve_right not_mem_nil, .inl rfl⟩
  · exact dedupeByIou_represents _ _ item (mem_append.mpr own)

theorem represented (roomy : Roomy q.frame) {j : ℕ} (own : p.entries[j]? = some e)
    (firm : Firme p.frameIndex e) (inside : Inside q.frame e.box) : SaiuDeCena config p q j e ∨
      ∃ item, DeOnde config p q j e item ∧ item.classId = e.classId ∧
        Representado config.mergeIou (rodar config p q).2 item := by
  obtain ⟨f, place, -, classId, -, -, copy⟩ := plan_entries config own
  by_cases matched : j ∈ (pareados config p q).matched.map Prod.fst
  · obtain ⟨⟨k, item⟩, listed, rfl⟩ := mem_map.mp matched
    have pairs := matchAll_pareado config (plan config p q.frame q.motionBoxes).1.frameIndex
      (plan config p q.frame q.motionBoxes).1.entries (dedupeByIou q.detections config.mergeIou)
    obtain ⟨fresh, same⟩ := pairs.matches_ k item listed
    exact .inr ⟨item, .inl listed, ((same f place).1.symm.trans classId),
      output_represents config (.inl fresh)⟩
  · rcases plan_covered config roomy (List.mem_of_getElem? own) inside with skipped | covered
    · obtain ⟨listed, rfl⟩ := copy skipped
      exact .inr ⟨_, .inr ⟨listed, rfl⟩, firm.classId, output_represents config (.inr listed)⟩
    · exact .inl ⟨covered, matched⟩

/-! The next frames. -/

/-- The entry is inferred: a region that contains it is executed, or a detection is matched to
it. -/
def Inferida (p : Planner) (q : Quadro) (j : ℕ) (e : Entry) : Prop :=
  (∃ region ∈ (plan config p q.frame q.motionBoxes).2.regions, boxInside region e.box = true) ∨
    j ∈ (pareados config p q).matched.map Prod.fst

/-- The same object, as it was when it was last inferred. -/
structure Mesma (e f : Entry) : Prop where
  box : f.box = e.box
  classId : f.classId = e.classId
  lastInfer : f.lastInfer = e.lastInfer

theorem rodar_frameIndex (p : Planner) (q : Quadro) :
    (rodar config p q).1.frameIndex = p.frameIndex + 1 := rfl

theorem kept_of_not_inferida (lasts : config.stationaryInterval ≤ config.stationaryMaxAge)
    (roomy : Roomy q.frame) {j : ℕ} (own : p.entries[j]? = some e) (firm : Firme p.frameIndex e)
    (inside : Inside q.frame e.box) (not_ : ¬Inferida config p q j e) :
    (p.frameIndex : ℤ) + 1 - e.lastInfer < config.stationaryInterval ∧
      ∃ (k : ℕ) (f : Entry), (rodar config p q).1.entries[k]? = some f ∧ Mesma e f := by
  obtain ⟨outside, unmatched⟩ := not_or.mp not_
  obtain ⟨f, place, box, classId, seen, infer, -⟩ := plan_entries config own
  have skipped := (plan_covered config roomy (List.mem_of_getElem? own) inside).resolve_right
    outside
  have early := destino_pulado config skipped
  refine ⟨early, ?_⟩
  have pairs := matchAll_pareado config (plan config p q.frame q.motionBoxes).1.frameIndex
    (plan config p q.frame q.motionBoxes).1.entries (dedupeByIou q.detections config.mergeIou)
  have there : (pareados config p q).entries[j]? = some f := pairs.untouched j f place unmatched
  have stays : survives config (plan config p q.frame q.motionBoxes).2.regions (p.frameIndex + 1)
      (pareados config p q).matched f j = true := by
    unfold survives
    rw [if_neg unmatched, if_neg, Bool.not_eq_true', decide_eq_false_iff_not, seen, firm.seen]
    · omega
    · intro found
      obtain ⟨region, listed, above⟩ := any_eq_true.mp found
      exact outside ⟨region, listed, box ▸ above⟩
  have survivor : f ∈ (rodar config p q).1.entries :=
    mem_map.mpr ⟨(f, j), mem_filter.mpr ⟨List.mk_mem_zipIdx_iff_getElem?.mpr there, stays⟩, rfl⟩
  obtain ⟨k, final⟩ := List.getElem?_of_mem survivor
  exact ⟨k, f, final, box, classId, infer⟩

theorem inferida_in_time (lasts : config.stationaryInterval ≤ config.stationaryMaxAge)
    (quadros : List Quadro) {j : ℕ} (firm : ∀ e ∈ p.entries, Firme p.frameIndex e)
    (own : p.entries[j]? = some e) (each : ∀ q ∈ quadros, Roomy q.frame ∧ Inside q.frame e.box)
    (some_ : quadros ≠ [])
    (long : config.stationaryInterval ≤ quadros.length + ((p.frameIndex : ℤ) - e.lastInfer)) :
    ∃ before q after k f, quadros = before ++ q :: after ∧
      (depois config p before).entries[k]? = some f ∧ Mesma e f ∧
      Inferida config (depois config p before) q k f := by
  induction quadros generalizing p j e with
  | nil => exact absurd rfl some_
  | cons q quadros ih =>
    obtain ⟨roomy, inside⟩ := each q (mem_cons_self ..)
    by_cases now : Inferida config p q j e
    · exact ⟨[], q, quadros, j, e, rfl, own, ⟨rfl, rfl, rfl⟩, now⟩
    · obtain ⟨early, k, f, kept, same⟩ :=
        kept_of_not_inferida config lasts roomy own (firm e (List.mem_of_getElem? own)) inside now
      rw [length_cons] at long
      have rest : quadros ≠ [] := by
        rintro rfl
        rw [length_nil] at long
        omega
      have longer : config.stationaryInterval ≤
          quadros.length + (((rodar config p q).1.frameIndex : ℤ) - f.lastInfer) := by
        rw [rodar_frameIndex, same.lastInfer]
        omega
      obtain ⟨before, r, after, m, g, split_, place, likewise, inferred⟩ :=
        ih (rodar_firme config firm q) kept
          (fun r later => same.box ▸ each r (mem_cons_of_mem _ later)) rest longer
      exact ⟨q :: before, r, after, m, g, congrArg _ split_, place,
        ⟨likewise.box.trans same.box, likewise.classId.trans same.classId,
          likewise.lastInfer.trans same.lastInfer⟩, inferred⟩

theorem inicio_firme : ∀ e ∈ ({} : Planner).entries, Firme ({} : Planner).frameIndex e :=
  fun _ own => absurd own not_mem_nil

/-- Whatever was planned and committed before, under every configuration: an object of the cache that
lies in the frame is represented in the output of the frame, unless a region that contains it found
nothing of it; and it is inferred again within the interval, where that is one, as every interval
that is loaded, and no longer than an entry may live. -/
theorem objeto_acompanhado (config : RegionConfig) (antes : List Quadro) :
    let p := depois config {} antes
    (∀ (q : Quadro) (j : ℕ) (e : Entry), 4 ≤ q.frame.w → 4 ≤ q.frame.h →
      p.entries[j]? = some e → Inside q.frame e.box →
      SaiuDeCena config p q j e ∨
        ∃ item, DeOnde config p q j e item ∧ item.classId = e.classId ∧
          Representado config.mergeIou (rodar config p q).2 item) ∧
    (1 ≤ config.stationaryInterval → config.stationaryInterval ≤ config.stationaryMaxAge →
      ∀ (j : ℕ) (e : Entry) (quadros : List Quadro), p.entries[j]? = some e →
        (∀ q ∈ quadros, 4 ≤ q.frame.w ∧ 4 ≤ q.frame.h ∧ Inside q.frame e.box) →
        config.stationaryInterval ≤ quadros.length →
        ∃ before q after k f, quadros = before ++ q :: after ∧
          (depois config p before).entries[k]? = some f ∧ Mesma e f ∧
          Inferida config (depois config p before) q k f) ∧
    ∀ env, 1 ≤ (fromEnv env).stationaryInterval := by
  have firm := depois_firme config antes inicio_firme
  refine ⟨fun q j e wide high own inside => ?_, fun positive lasts j e quadros own each long => ?_,
    fun env => ?_⟩
  · exact represented config ⟨wide, high⟩ own (firm e (List.mem_of_getElem? own)) inside
  · have past := (firm e (List.mem_of_getElem? own)).past
    refine inferida_in_time config lasts quadros firm own
      (fun q listed => ⟨⟨(each q listed).1, (each q listed).2.1⟩, (each q listed).2.2⟩) ?_ ?_
    · rintro rfl
      rw [length_nil] at long
      omega
    · omega
  · exact (envInt_bounds env "GENERAL_REGION_STATIONARY_INTERVAL" (by decide) (by decide)).1

/-! Objects that do vanish. -/

/-- The environment of a table of texts; `1` is the only number with a fraction that is read. -/
def tabela (values : List (String × String × ℤ)) : Env where
  text name := ((values.find? fun v => v.1 == name).map fun v => v.2.1).getD ""
  int raw := (values.find? fun v => v.2.1 == raw).map fun v => v.2.2
  float raw := if raw = "1" then some 1 else none

/-- The object of the entry itself is in the output, unless a region that contains it found nothing
of it. -/
def Presente (p : Planner) (q : Quadro) (j : ℕ) (e : Entry) : Prop :=
  SaiuDeCena config p q j e ∨ ∃ item ∈ (rodar config p q).2, DeOnde config p q j e item

instance (p : Planner) (q : Quadro) (j : ℕ) (e : Entry) : Decidable (Presente config p q j e) :=
  inferInstanceAs (Decidable (((∃ region ∈ _, _) ∧ _ ∉ _) ∨
    ∃ item ∈ (rodar config p q).2, _ ∈ _ ∨ _ ∈ _ ∧ _))

/-- Of two people who overlap the one in front moves, and the other one stands still. -/
def frente : Deteccao := { confidence := 9 / 10, bbox := ⟨48, 0, 88, 40⟩, classId := 0 }

def atras : Deteccao := { confidence := 1 / 2, bbox := ⟨36, 0, 76, 40⟩, classId := 0 }

def rapida : Env := tabela [("GENERAL_REGION_MIN_SIZE", "32", 32),
  ("GENERAL_REGION_MARGIN", "1", 1), ("GENERAL_REGION_STATIONARY_THRESHOLD", "1", 1),
  ("GENERAL_REGION_SWEEP_EVERY", "0", 0)]

/-- Both are seen twice. -/
def encontro : List Quadro :=
  [⟨quadro, [(⟨36, 0, 88, 40⟩ : Box).values], [frente, atras]⟩, ⟨quadro, [], [frente, atras]⟩]

def passagem : Quadro :=
  ⟨quadro, [(⟨80, 0, 84, 4⟩ : Box).values],
    [{ confidence := 9 / 10, bbox := ⟨48, 0, 76, 40⟩, classId := 0 }]⟩

/-- An entry dies after one frame, a frame before it would be inferred again. -/
def breve : Env := tabela [("GENERAL_REGION_STATIONARY_INTERVAL", "2", 2),
  ("GENERAL_REGION_STATIONARY_MAX_AGE", "1", 1), ("GENERAL_REGION_STATIONARY_THRESHOLD", "1", 1),
  ("GENERAL_REGION_SWEEP_EVERY", "0", 0), ("GENERAL_REGION_IDLE_FULL_FRAME", "no", 0)]

def configBreve : RegionConfig where
  stationaryInterval := 2
  stationaryMaxAge := 1
  stationaryThreshold := 1
  sweepEvery := 0
  idleFullFrame := false

theorem breve_config : fromEnv breve = configBreve := by
  decide +kernel

def visto : Quadro := ⟨quadro, [(⟨48, 0, 88, 40⟩ : Box).values], [frente]⟩

def vazio : Quadro := ⟨quadro, [], []⟩

def entrada (d : Deteccao) (motionless n : ℕ) : Entry :=
  ⟨d, d.bbox, d.classId, motionless, n, n, 0⟩

theorem breve_esquece : (fromEnv breve).stationaryInterval ≤ ([vazio, vazio].length : ℤ) ∧
    ∃ e, (depois (fromEnv breve) {} [visto, visto]).entries[0]? = some e ∧ Inside quadro e.box ∧
      ¬∃ before q after k f, [vazio, vazio] = before ++ q :: after ∧
        (depois (fromEnv breve) (depois (fromEnv breve) {} [visto, visto]) before).entries[k]? =
          some f ∧ Mesma e f ∧ Inferida (fromEnv breve)
            (depois (fromEnv breve) (depois (fromEnv breve) {} [visto, visto]) before) q k f := by
  rw [breve_config]
  refine ⟨by decide, entrada frente 1 2, by decide +kernel, ⟨by decide, by decide, by decide,
    by decide, by decide, by decide⟩, ?_⟩
  rintro ⟨before, q, after, k, f, split_, place, -, inferred⟩
  have dropped :
      (depois configBreve (depois configBreve {} [visto, visto]) [vazio]).entries = [] := by
    decide +kernel
  have still :
      (plan configBreve (depois configBreve {} [visto, visto]) quadro []).2.regions = [] := by
    decide +kernel
  cases before with
  | nil =>
    obtain ⟨rfl, -⟩ := List.cons.inj split_
    rcases inferred with ⟨region, listed, -⟩ | matched
    · exact not_mem_nil (still ▸ listed)
    · exact not_mem_nil matched
  | cons b rest =>
    obtain ⟨same, tail⟩ := List.cons.inj split_
    cases rest with
    | nil =>
      rw [← same, dropped] at place
      cases place
    | cons c rest =>
      have sizes := congrArg List.length split_
      rw [length_append, length_cons, length_cons, length_cons,
        length_cons, length_cons, length_nil] at sizes
      omega

/-- The copy of the one behind is left out for the one in front; an object is not in a frame that
has become smaller; and an object is not inferred again when it was dropped before. -/
theorem objeto_some :
    (∃ e, (depois (fromEnv rapida) {} encontro).entries[1]? = some e ∧ Inside quadro e.box ∧
      ¬Presente (fromEnv rapida) (depois (fromEnv rapida) {} encontro) passagem 1 e) ∧
    (∃ e, (depois (fromEnv breve) {} [visto]).entries[0]? = some e ∧
      ¬Presente (fromEnv breve) (depois (fromEnv breve) {} [visto]) ⟨⟨20, 20⟩, [], []⟩ 0 e) ∧
    (fromEnv breve).stationaryInterval ≤ ([vazio, vazio].length : ℤ) ∧
    ∃ e, (depois (fromEnv breve) {} [visto, visto]).entries[0]? = some e ∧ Inside quadro e.box ∧
      ¬∃ before q after k f, [vazio, vazio] = before ++ q :: after ∧
        (depois (fromEnv breve) (depois (fromEnv breve) {} [visto, visto]) before).entries[k]? =
          some f ∧ Mesma e f ∧ Inferida (fromEnv breve)
            (depois (fromEnv breve) (depois (fromEnv breve) {} [visto, visto]) before) q k f := by
  refine ⟨?_, ?_, breve_esquece⟩
  · exact ⟨entrada atras 1 2, by decide +kernel, ⟨by decide, by decide, by decide, by decide,
      by decide, by decide⟩, by decide +kernel⟩
  · exact ⟨entrada frente 0 1, by decide +kernel, by decide +kernel⟩

/-- The one behind again: the one in front stands for it. -/
theorem objeto_representado : ∃ e, (depois (fromEnv rapida) {} encontro).entries[1]? = some e ∧
      (SaiuDeCena (fromEnv rapida) (depois (fromEnv rapida) {} encontro) passagem 1 e ∨
        ∃ item, DeOnde (fromEnv rapida) (depois (fromEnv rapida) {} encontro) passagem 1 e item ∧
          item.classId = e.classId ∧ Representado (fromEnv rapida).mergeIou
            (rodar (fromEnv rapida) (depois (fromEnv rapida) {} encontro) passagem).2 item) := by
  have own : (depois (fromEnv rapida) {} encontro).entries[1]? = some (entrada atras 1 2) := by
    decide +kernel
  exact ⟨_, own,
    (objeto_acompanhado (fromEnv rapida) encontro).1 passagem 1 _ (by decide) (by decide) own
    ⟨by decide, by decide, by decide, by decide, by decide, by decide⟩⟩

end DracVms.RegionProposal
