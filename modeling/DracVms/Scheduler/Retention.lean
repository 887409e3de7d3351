import DracVms.Scheduler.Sanity

namespace DracVms.Scheduler

open List

open Json (Text field)
open KeyedList
open Binary64 (double Exact double_mono double_idem double_zero)

def PreviousState.owner (previous : PreviousState) (cameraId : Text) : Option Text :=
  (field previous.byCamera cameraId).map PreviousEntry.nodeId

/-- The workloads of one owner that still fit, one after the other, on top of its load. -/
def stay (previous : PreviousState) (nodeId : Text) (capacity : Rat) :
    Rat → List Workload → List Workload
  | _, [] => []
  | load, workload :: rest =>
    if previous.owner workload.id = some nodeId ∧
        double (load + workload.weight) ≤ capacity then
      workload :: stay previous nodeId capacity (double (load + workload.weight)) rest
    else stay previous nodeId capacity load rest

/-- A load with these workloads on top, one after the other. -/
def laden (load : Rat) (workloads : List Workload) : Rat :=
  workloads.foldl (fun load workload => double (load + workload.weight)) load

variable (workload : Workload)

theorem le_double_add {load weight : Rat} (rounded : double load = load) (weighs : 0 < weight) :
    load ≤ double (load + weight) :=
  calc load = double load := rounded.symm
    _ ≤ double (load + weight) := double_mono (le_add_of_nonneg_right weighs.le)

theorem le_laden (load : Rat) (workloads : List Workload) (rounded : double load = load)
    (weighs : ∀ other ∈ workloads, 0 < other.weight) : load ≤ laden load workloads := by
  induction workloads generalizing load with
  | nil => exact le_refl _
  | cons first rest ih =>
    exact (le_double_add rounded (weighs first mem_cons_self)).trans
      (ih _ (double_idem _) fun other present => weighs other (mem_cons_of_mem first present))

section Stay

variable (previous : PreviousState) (nodeId : Text) (capacity : Rat)

section

variable (load : Rat) (workloads : List Workload)

theorem stay_snoc : stay previous nodeId capacity load (workloads ++ [workload]) =
      stay previous nodeId capacity load workloads ++
        if previous.owner workload.id = some nodeId ∧
            double (laden load (stay previous nodeId capacity load workloads) + workload.weight) ≤
              capacity
        then [workload] else [] := by
  induction workloads generalizing load with
  | nil =>
    rw [nil_append, stay, stay, stay, stay, laden, foldl_nil]
    split
    all_goals rfl
  | cons first rest ih =>
    rw [cons_append, stay, stay]
    split
    · rw [ih, cons_append]
      rfl
    · rw [ih]

theorem stay_sublist : (stay previous nodeId capacity load workloads).Sublist workloads := by
  induction workloads generalizing load with
  | nil => exact List.Sublist.slnil
  | cons first rest ih =>
    rw [stay]
    split
    · exact (ih _).cons_cons first
    · exact (ih load).cons first

theorem stay_owned (stays : workload ∈ stay previous nodeId capacity load workloads) :
    previous.owner workload.id = some nodeId := by
  induction workloads generalizing load with
  | nil => cases stays
  | cons first rest ih =>
    rw [stay] at stays
    split at stays
    · rename_i owned
      rcases mem_cons.mp stays with rfl | later
      · exact owned.1
      · exact ih _ later
    · exact ih load stays

variable (rounded : double load = load) (weighs : ∀ other ∈ workloads, 0 < other.weight)
include rounded weighs

theorem stay_full (member : workload ∈ workloads) (owned : previous.owner workload.id = some nodeId)
    (leaves : workload ∉ stay previous nodeId capacity load workloads) : capacity <
      double (laden load (stay previous nodeId capacity load workloads) + workload.weight) := by
  induction workloads generalizing load with
  | nil => cases member
  | cons first rest ih =>
    have later : ∀ other ∈ rest, 0 < other.weight := fun other present =>
      weighs other (mem_cons_of_mem first present)
    rw [stay] at leaves ⊢
    split at leaves
    · rename_i fits
      rw [if_pos fits]
      obtain ⟨other, leaves'⟩ := not_or.mp (fun either => leaves (mem_cons.mpr either))
      have inRest := (mem_cons.mp member).resolve_left other
      exact ih _ (double_idem _) later inRest leaves'
    · rename_i unfit
      rw [if_neg unfit]
      rcases mem_cons.mp member with rfl | inRest
      · have exceeded : capacity < double (load + workload.weight) := by
          by_contra room
          exact unfit ⟨owned, not_lt.mp room⟩
        have more := le_laden load (stay previous nodeId capacity load rest) rounded
          fun other stays => later other ((stay_sublist _ _ _ _ _).subset stays)
        exact exceeded.trans_le (double_mono (by linarith))
      · exact ih load rounded later inRest leaves

theorem stay_all
    (fits : laden load (workloads.filter fun workload => previous.owner workload.id = some nodeId)
      ≤ capacity) :
    stay previous nodeId capacity load workloads = workloads.filter fun workload =>
      previous.owner workload.id = some nodeId := by
  induction workloads generalizing load with
  | nil => rfl
  | cons first rest ih =>
    have later : ∀ other ∈ rest, 0 < other.weight := fun other present =>
      weighs other (mem_cons_of_mem first present)
    rw [stay, filter_cons]
    rw [filter_cons] at fits
    by_cases owned : previous.owner first.id = some nodeId
    · rw [if_pos (decide_eq_true owned)] at fits
      have room : double (load + first.weight) ≤ capacity :=
        (le_laden _ _ (double_idem _) fun other present =>
          later other (mem_of_mem_filter present)).trans fits
      rw [if_pos ⟨owned, room⟩, if_pos (decide_eq_true owned), ih _ (double_idem _) later fits]
    · have skipped : ¬(previous.owner first.id = some nodeId ∧
          double (load + first.weight) ≤ capacity) := fun both => owned both.1
      rw [if_neg (by simpa using owned)] at fits
      rw [if_neg skipped, if_neg (by simpa using owned), ih load rounded later fits]

end

end Stay

variable (previous : PreviousState)

theorem retain_cases (so : Fleet × List Record) (workload : Workload)
    (distinct : (so.1.nodes.map Node.id).Nodup) :
    (∃ node ∈ so.1.nodes, previous.owner workload.id = some node.id ∧ canRetain node = true ∧
        double (node.load + workload.weight) ≤ node.capacity ∧
        retain previous so workload =
          (Fleet.place
            { so.1 with
              records := so.1.records ++ [workload.record (field previous.byCamera workload.id)] }
            node.id workload.id workload.weight, so.2)) ∨
      ∃ reason ≠ Reason.draining,
        (∀ node ∈ so.1.nodes, previous.owner workload.id = some node.id → canRetain node = true →
          node.capacity < double (node.load + workload.weight)) ∧
        retain previous so workload =
          ({ so.1 with
              records := so.1.records ++
                [{ workload.record (field previous.byCamera workload.id) with
                    reason := some reason }] },
            so.2 ++ [{ workload.record (field previous.byCamera workload.id) with
              reason := some reason }]) := by
  unfold retain PreviousState.owner
  cases before : field previous.byCamera workload.id with
  | none =>
    right
    refine ⟨.new, nofun, ?_, rfl⟩
    intro node _ owned
    cases owned
  | some entry =>
    dsimp only [Option.map_some]
    cases located : lookup Node.id so.1.nodes entry.nodeId with
    | none =>
      right
      refine ⟨.nodeRemoved, nofun, ?_, rfl⟩
      intro node member owned
      exact absurd (Option.some.inj owned).symm (lookup_eq_none located node member)
    | some node =>
      obtain ⟨member, named⟩ := lookup_mem located
      have only : ∀ other ∈ so.1.nodes, some entry.nodeId = some other.id → other = node := by
        intro other present owned
        exact eq_of_key distinct present member ((Option.some.inj owned).symm.trans named.symm)
      dsimp only
      by_cases retains : canRetain node = true
      · rw [retains]
        by_cases full : node.capacity < double (node.load + workload.weight)
        · right
          refine ⟨.capacity, nofun, ?_, ?_⟩
          · intro other present owned _
            rw [only other present owned]
            exact full
          · exact if_pos full
        · left
          refine ⟨node, member, congrArg some named.symm, retains, not_lt.mp full, ?_⟩
          exact if_neg full
      · right
        refine ⟨.nodeDead, nofun, ?_, ?_⟩
        · intro other present owned alive
          rw [only other present owned] at alive
          exact absurd alive retains
        · rw [Bool.eq_false_iff.mpr retains]
          rfl

/-- The camera is one of those that stay on this node. -/
def Holds (previous : PreviousState) (nodes : List Node) (seen : List Workload)
    (nodeId cameraId : Text) : Prop :=
  ∃ node ∈ nodes, node.id = nodeId ∧ canRetain node = true ∧
    ∃ workload ∈ stay previous nodeId node.capacity 0 seen, workload.id = cameraId

theorem holds_snoc_other (nodes : List Node) (seen : List Workload) (workload : Workload)
    (nodeId cameraId : Text) (other : cameraId ≠ workload.id) :
    Holds previous nodes (seen ++ [workload]) nodeId cameraId ↔
      Holds previous nodes seen nodeId cameraId := by
  apply exists_congr
  intro node
  apply and_congr_right
  intro _
  apply and_congr_right
  intro _
  apply and_congr_right
  intro _
  rw [stay_snoc]
  constructor
  · rintro ⟨kept, member, rfl⟩
    rcases mem_append.mp member with old | new
    · exact ⟨kept, old, rfl⟩
    · split at new
      · rw [mem_singleton.mp new] at other
        exact absurd rfl other
      · cases new
  · rintro ⟨kept, member, rfl⟩
    exact ⟨kept, mem_append_left _ member, rfl⟩

theorem holds_snoc_self (nodes : List Node) (seen : List Workload) (workload : Workload)
    (nodeId : Text) (fresh : workload.id ∉ seen.map Workload.id) :
    Holds previous nodes (seen ++ [workload]) nodeId workload.id ↔
      ∃ node ∈ nodes, node.id = nodeId ∧ canRetain node = true ∧
        previous.owner workload.id = some nodeId ∧
        double (laden 0 (stay previous nodeId node.capacity 0 seen) + workload.weight) ≤
          node.capacity := by
  apply exists_congr
  intro node
  apply and_congr_right
  intro _
  apply and_congr_right
  intro _
  apply and_congr_right
  intro _
  rw [stay_snoc]
  constructor
  · rintro ⟨kept, member, same⟩
    rcases mem_append.mp member with old | new
    · exfalso
      apply fresh
      rw [← same]
      exact mem_map_of_mem ((stay_sublist _ _ _ _ _).subset old)
    · split at new
      · assumption
      · cases new
  · intro fits
    refine ⟨workload, mem_append_right _ ?_, rfl⟩
    rw [if_pos fits]
    exact mem_singleton_self workload

/-- Phase 1 by its owners: who stays on which node, and what that node then carries. -/
structure Stayed (previous : PreviousState) (nodes : List Node) (seen : List Workload)
    (so : Fleet × List Record) : Prop where
  loads : ∀ node ∈ so.1.nodes, canRetain node = true →
    node.load = laden 0 (stay previous node.id node.capacity 0 seen)
  homes : ∀ record ∈ so.1.records, ∀ nodeId, record.nodeId = some nodeId ↔
    Holds previous nodes seen nodeId record.id
  queued : ∀ record ∈ so.1.records, record.nodeId = none → record ∈ so.2
  reasons : ∀ record ∈ so.1.records, record.reason ≠ some .draining

theorem laden_snoc (load : Rat) (workloads : List Workload) (workload : Workload) :
    laden load (workloads ++ [workload]) = double (laden load workloads + workload.weight) := by
  rw [laden, foldl_append]
  rfl

theorem fixed_counterpart {first second : List Node}
    (same : first.map Node.fixed = second.map Node.fixed) (node : Node) (member : node ∈ first) :
    ∃ other ∈ second, other.id = node.id ∧ other.capacity = node.capacity ∧
      other.health = node.health := by
  have listed : node.fixed ∈ first.map Node.fixed := mem_map_of_mem member
  rw [same] at listed
  obtain ⟨other, present, fixed⟩ := mem_map.mp listed
  exact ⟨other, present, congrArg Prod.fst fixed, congrArg (fun fixed => fixed.2.2.1) fixed,
    congrArg (fun fixed => fixed.2.2.2) fixed⟩

theorem canRetain_of_health {node other : Node} (same : other.health = node.health) :
    canRetain other = canRetain node := by
  rw [canRetain, canRetain, same]

theorem Stayed.retain {previous : PreviousState} {nodes : List Node} {seen : List Workload}
    {so : Fleet × List Record} (stayed : Stayed previous nodes seen so)
    (retained : Retained previous nodes seen so) (workload : Workload)
    (fresh : workload.id ∉ seen.map Workload.id) :
    Stayed previous nodes (seen ++ [workload]) (retain previous so workload) := by
  have unknown : ∀ record ∈ so.1.records, record.id ≠ workload.id := by
    intro record member same
    apply fresh
    rw [← retained.recordIds, ← same]
    exact mem_map_of_mem member
  rcases retain_cases previous so workload retained.balanced.nodeIds with
    ⟨node, member, owned, retains, room, taken⟩ | ⟨reason, undrained, full, taken⟩
  · rw [taken]
    have carried := stayed.loads node member retains
    obtain ⟨built, inBuilt, sameId, sameCapacity, sameHealth⟩ :=
      fixed_counterpart retained.nodes node member
    have records : ∀ record, record ∈ (Fleet.place
        { so.1 with
          records := so.1.records ++ [workload.record (field previous.byCamera workload.id)] }
        node.id workload.id workload.weight).records →
        record ∈ so.1.records ∨
          record.id = workload.id ∧ record.nodeId = some node.id ∧ record.reason = none := by
      intro record present
      obtain ⟨old, listed, rfl⟩ := mem_map.mp present
      rcases mem_append.mp listed with inOld | new
      · rw [if_neg (unknown old inOld)]
        exact Or.inl inOld
      · have named : (workload.record (field previous.byCamera workload.id)).id = workload.id := rfl
        rw [mem_singleton.mp new, if_pos named]
        exact Or.inr ⟨rfl, rfl, rfl⟩
    refine ⟨?_, ?_, ?_, ?_⟩
    · intro other present alive
      rcases (mem_updateAt retained.balanced.nodeIds member _ other).mp present with
        rfl | ⟨inNodes, apart⟩
      · have fits : previous.owner workload.id = some node.id ∧
            double (laden 0 (stay previous node.id node.capacity 0 seen) + workload.weight) ≤
              node.capacity := by
          rw [← carried]
          exact ⟨owned, room⟩
        show double (node.load + workload.weight) = laden 0 (stay previous node.id node.capacity 0 _)
        rw [stay_snoc, if_pos fits, laden_snoc, carried]
      · have elsewhere : ¬(previous.owner workload.id = some other.id ∧
            double (laden 0 (stay previous other.id other.capacity 0 seen) + workload.weight) ≤
              other.capacity) := by
          intro both
          rw [owned] at both
          exact apart (Option.some.inj both.1).symm
        rw [stay_snoc, if_neg elsewhere, append_nil]
        exact stayed.loads other inNodes alive
    · intro record present nodeId
      rcases records record present with old | ⟨named, home, -⟩
      · rw [holds_snoc_other _ _ _ _ _ _ (unknown record old)]
        exact stayed.homes record old nodeId
      · rw [home, named, holds_snoc_self _ _ _ _ _ fresh]
        constructor
        · intro here
          cases here
          refine ⟨built, inBuilt, sameId, (canRetain_of_health sameHealth).trans retains, owned, ?_⟩
          rw [sameCapacity, ← carried]
          exact room
        · rintro ⟨other, -, -, -, owner, -⟩
          exact owned.symm.trans owner
    · intro record present homeless
      rcases records record present with old | ⟨-, home, -⟩
      · exact stayed.queued record old homeless
      · rw [homeless] at home
        cases home
    · intro record present
      rcases records record present with old | ⟨-, -, reason⟩
      · exact stayed.reasons record old
      · rw [reason]
        nofun
  · rw [taken]
    refine ⟨?_, ?_, ?_, ?_⟩
    · intro node member retains
      have carried := stayed.loads node member retains
      have unfit : ¬(previous.owner workload.id = some node.id ∧
          double (laden 0 (stay previous node.id node.capacity 0 seen) + workload.weight) ≤
            node.capacity) := by
        rintro ⟨owned, room⟩
        rw [← carried] at room
        exact absurd room (not_le.mpr (full node member owned retains))
      rw [stay_snoc, if_neg unfit, append_nil]
      exact carried
    · intro record present nodeId
      rcases mem_append.mp present with old | new
      · rw [holds_snoc_other _ _ _ _ _ _ (unknown record old)]
        exact stayed.homes record old nodeId
      · rw [mem_singleton.mp new]
        constructor
        · intro home
          cases home
        · intro holds
          obtain ⟨built, inBuilt, rfl, retains, owned, room⟩ :=
            (holds_snoc_self _ _ _ _ _ fresh).mp holds
          obtain ⟨node, member, sameId, sameCapacity, sameHealth⟩ :=
            fixed_counterpart retained.nodes.symm built inBuilt
          have alive := (canRetain_of_health sameHealth).trans retains
          have carried := stayed.loads node member alive
          rw [sameId, sameCapacity] at carried
          rw [← carried, ← sameCapacity] at room
          rw [← sameId] at owned
          exact absurd room (not_le.mpr (full node member owned alive))
    · intro record present homeless
      rcases mem_append.mp present with old | new
      · exact mem_append_left _ (stayed.queued record old homeless)
      · exact mem_append_right _ new
    · intro record present
      rcases mem_append.mp present with old | new
      · exact stayed.reasons record old
      · rw [mem_singleton.mp new]
        intro same
        exact undrained (Option.some.inj same)

theorem stayed_all (nodes : List Node) (workloads seen : List Workload) (so : Fleet × List Record)
    (weighs : ∀ workload ∈ workloads, 0 < workload.weight)
    (distinct : ((seen ++ workloads).map Workload.id).Nodup)
    (retained : Retained previous nodes seen so) (stayed : Stayed previous nodes seen so) :
    Stayed previous nodes (seen ++ workloads) (workloads.foldl (Scheduler.retain previous) so) := by
  induction workloads generalizing seen so with
  | nil =>
    rw [append_nil]
    exact stayed
  | cons workload rest ih =>
    have fresh : workload.id ∉ seen.map Workload.id := by
      intro listed
      rw [map_append] at distinct
      have apart := (nodup_append.mp distinct).2.2
      exact apart workload.id listed workload.id mem_cons_self rfl
    have later := ih (seen ++ [workload]) _
      (fun other member => weighs other (mem_cons_of_mem _ member))
      (by rwa [append_assoc])
      (retained.retain workload (weighs workload mem_cons_self) fresh)
      (stayed.retain retained workload fresh)
    rwa [append_assoc] at later

/-- The nodes that take cameras only fill up. -/
def Grows (fleet later : Fleet) : Prop :=
  ∀ node ∈ later.nodes, isPlaceable node = true →
    ∃ before ∈ fleet.nodes, before.fixed = node.fixed ∧ before.load ≤ node.load

variable (fleet : Fleet)

theorem Grows.refl : Grows fleet fleet :=
  fun node member _ => ⟨node, member, rfl, le_refl _⟩

theorem isPlaceable_of_fixed {node other : Node} (same : other.fixed = node.fixed) :
    isPlaceable other = isPlaceable node := by
  have health : other.health = node.health := congrArg (fun fixed => fixed.2.2.2) same
  rw [isPlaceable, isPlaceable, health]

theorem Grows.trans {first second third : Fleet} (left : Grows first second)
    (right : Grows second third) : Grows first third := by
  intro node member placeable
  obtain ⟨middle, inMiddle, same, more⟩ := right node member placeable
  obtain ⟨before, inFirst, same', more'⟩ :=
    left middle inMiddle ((isPlaceable_of_fixed same).trans placeable)
  exact ⟨before, inFirst, same'.trans same, more'.trans more⟩

/-- No node that takes cameras has room for this weight. -/
def NoRoom (nodes : List Node) (weight : Rat) : Prop :=
  ∀ node ∈ nodes, isPlaceable node = true → node.capacity < double (node.load + weight)

theorem NoRoom.grows {fleet later : Fleet} {weight : Rat} (full : NoRoom fleet.nodes weight)
    (grows : Grows fleet later) : NoRoom later.nodes weight := by
  intro node member placeable
  obtain ⟨before, inFleet, same, more⟩ := grows node member placeable
  have exceeded := full before inFleet ((isPlaceable_of_fixed same).trans placeable)
  have capacity : before.capacity = node.capacity := congrArg (fun fixed => fixed.2.2.1) same
  rw [← capacity]
  exact exceeded.trans_le (double_mono (by linarith))

theorem pickTarget_none (nodes : List Node) (weight : Rat) :
    pickTarget nodes weight = none ↔ NoRoom nodes weight := by
  have some_stays : ∀ (rest : List Node) (best : Node × Rat),
      ∃ found, rest.foldl (better weight) (some best) = some found := by
    intro rest
    induction rest with
    | nil => exact fun best => ⟨best, rfl⟩
    | cons node rest ih =>
      intro best
      have next : ∃ chosen, better weight (some best) node = some chosen := by
        unfold better
        split
        · exact ⟨best, rfl⟩
        · dsimp only
          split
          · exact ⟨best, rfl⟩
          · split
            all_goals exact ⟨_, rfl⟩
      obtain ⟨chosen, taken⟩ := next
      rw [foldl_cons, taken]
      exact ih chosen
  unfold pickTarget NoRoom
  induction nodes with
  | nil => simp
  | cons node rest ih =>
    rw [foldl_cons, forall_mem_cons]
    by_cases fits : isPlaceable node = true ∧ ¬node.capacity < double (node.load + weight)
    · have chosen : better weight none node =
          some (node, double (double (node.load + weight) / node.capacity)) := by
        simp [better, fits.1, fits.2]
      obtain ⟨found, taken⟩ := some_stays rest
        (node, double (double (node.load + weight) / node.capacity))
      rw [chosen, taken]
      constructor
      · intro impossible
        cases impossible
      · intro full
        exact absurd (full.1 fits.1) fits.2
    · have skipped : better weight none node = none := by
        unfold better
        by_cases placeable : isPlaceable node = true
        · have full : node.capacity < double (node.load + weight) := by
            by_contra room
            exact fits ⟨placeable, room⟩
          simp [placeable, full]
        · simp [placeable]
      rw [skipped]
      refine Iff.trans ih ?_
      constructor
      · intro full
        refine ⟨?_, full⟩
        intro placeable
        by_contra room
        exact fits ⟨placeable, room⟩
      · exact fun both => both.2

theorem place_grows (nodeId recordId : Text) (weight : Rat) (weighs : 0 < weight)
    (doubles : ∀ node ∈ fleet.nodes, double node.load = node.load) :
    Grows fleet (fleet.place nodeId recordId weight) := by
  intro node member _
  obtain ⟨before, inFleet, rfl⟩ := mem_map.mp member
  refine ⟨before, inFleet, ?_, ?_⟩
  · split
    all_goals rfl
  · split
    · exact le_double_add (doubles before inFleet) weighs
    · exact le_refl _

theorem placeDeferred_none (record : Record)
    (picked : pickTarget fleet.nodes record.weight = none) :
    placeDeferred fleet record = fleet := by
  rw [placeDeferred, picked]

theorem placeDeferred_some (record : Record) (target : Node)
    (picked : pickTarget fleet.nodes record.weight = some target) :
    placeDeferred fleet record = fleet.place target.id record.id record.weight := by
  rw [placeDeferred, picked]

theorem deferred_fate (queue : List Record) (fleet : Fleet) (balanced : Balanced fleet)
    (waiting : Waiting fleet queue) : Grows fleet (queue.foldl placeDeferred fleet) ∧
      (∀ record ∈ fleet.records, record.id ∉ queue.map Record.id →
        record ∈ (queue.foldl placeDeferred fleet).records) ∧
      ∀ record ∈ queue,
        record ∈ (queue.foldl placeDeferred fleet).records ∧
            NoRoom (queue.foldl placeDeferred fleet).nodes record.weight ∨
          ∃ target ∈ fleet.nodes, isPlaceable target = true ∧
            double (target.load + record.weight) ≤ target.capacity ∧
            { record with nodeId := some target.id } ∈
              (queue.foldl placeDeferred fleet).records := by
  induction queue generalizing fleet with
  | nil => exact ⟨Grows.refl fleet, fun record member _ => member, nofun⟩
  | cons record rest ih =>
    obtain ⟨inRecords, homeless⟩ := waiting.listed record mem_cons_self
    obtain ⟨fresh, -⟩ := nodup_cons.mp waiting.distinct
    obtain ⟨next, -, later⟩ := placeDeferred_balanced balanced record rest waiting
    obtain ⟨grows, others, fates⟩ := ih _ next later
    have weighs := balanced.weights record inRecords
    have first : Grows fleet (placeDeferred fleet record) := by
      unfold placeDeferred
      split
      · exact Grows.refl fleet
      · exact place_grows fleet _ _ _ weighs balanced.doubles
    have untouched : ∀ other ∈ fleet.records, other.id ≠ record.id →
        other ∈ (placeDeferred fleet record).records := by
      intro other member apart
      unfold placeDeferred
      split
      · exact member
      · exact (mem_updateAt balanced.recordIds inRecords _ other).mpr (Or.inr ⟨member, apart⟩)
    refine ⟨first.trans grows, ?_, ?_⟩
    · intro other member unqueued
      rw [map_cons, mem_cons, not_or] at unqueued
      exact others other (untouched other member unqueued.1) unqueued.2
    · intro other member
      rcases mem_cons.mp member with rfl | inRest
      · rw [foldl_cons]
        cases picked : pickTarget fleet.nodes other.weight with
        | none =>
          rw [placeDeferred_none fleet other picked] at others grows ⊢
          left
          refine ⟨others other inRecords fresh, ?_⟩
          exact ((pickTarget_none _ _).mp picked).grows grows
        | some target =>
          rw [placeDeferred_some fleet other target picked] at others ⊢
          obtain ⟨inNodes, placeable, room⟩ := pickTarget_some _ _ target picked
          right
          refine ⟨target, inNodes, placeable, room, ?_⟩
          refine others { other with nodeId := some target.id } ?_ fresh
          exact (mem_updateAt balanced.recordIds inRecords _ _).mpr (Or.inl rfl)
      · rcases fates other inRest with stays | ⟨target, inNodes, placeable, room, placed⟩
        · exact Or.inl stays
        · right
          obtain ⟨before, inFleet, same, more⟩ := first target inNodes placeable
          have sameId : before.id = target.id := congrArg Prod.fst same
          have capacity : before.capacity = target.capacity :=
            congrArg (fun fixed => fixed.2.2.1) same
          refine ⟨before, inFleet, (isPlaceable_of_fixed same).trans placeable, ?_, ?_⟩
          · rw [capacity]
            exact (double_mono (by linarith)).trans room
          · rw [sameId]
            exact placed

end DracVms.Scheduler
