import DracVms.Scheduler.Retention

namespace DracVms.Scheduler

open List

open Json (Text field)
open KeyedList
open Binary64 (double)

/-- The record of a camera that left a draining node for another one. -/
def Record.drained (record : Record) (target : Text) : Record :=
  { record with nodeId := some target, reason := some .draining }

theorem drainCamera_cases {nodeId : Text} {fleet : Fleet} {cameraId : Text} {rest : List Text}
    (draining : Draining nodeId fleet (cameraId :: rest)) (drainBatch : Rat) (moved : Nat) :
    drainCamera drainBatch nodeId (fleet, moved) cameraId = (fleet, moved) ∨
      (moved : Rat) < drainBatch ∧
        (drainCamera drainBatch nodeId (fleet, moved) cameraId).2 = moved + 1 ∧
        Grows fleet (drainCamera drainBatch nodeId (fleet, moved) cameraId).1 ∧
        (∀ other ∈ fleet.records, other.id ≠ cameraId →
          other ∈ (drainCamera drainBatch nodeId (fleet, moved) cameraId).1.records) ∧
        ∀ record ∈ fleet.records, record.id = cameraId →
          ∃ target ∈ fleet.nodes, isPlaceable target = true ∧ record.drained target.id ∈
            (drainCamera drainBatch nodeId (fleet, moved) cameraId).1.records := by
  have balanced := draining.balanced
  obtain ⟨record, inRecords, rfl, home⟩ := draining.housed cameraId mem_cons_self
  have weighs := balanced.weights record inRecords
  unfold drainCamera
  by_cases full : drainBatch ≤ (moved : Rat)
  · exact Or.inl (if_pos full)
  · rw [if_neg full, lookup_eq_some balanced.recordIds inRecords]
    dsimp only
    cases picked : pickTarget fleet.nodes record.weight with
    | none => exact Or.inl rfl
    | some target =>
      right
      obtain ⟨node, inNodes, rfl, drains⟩ := draining.node
      obtain ⟨inTargets, placeable, -⟩ := pickTarget_some _ _ target picked
      have released := balanced.release inNodes inRecords home
      have freed : { record with nodeId := none } ∈
          (fleet.release node.id record.id record.weight).records :=
        (mem_updateAt balanced.recordIds inRecords _ _).mpr (Or.inl rfl)
      have kept : ∀ other ∈ fleet.records, other.id ≠ record.id →
          other ∈ (((fleet.release node.id record.id record.weight).place target.id record.id
            record.weight).giveReason record.id .draining).records := by
        intro other member apart
        have afterRelease := (mem_updateAt balanced.recordIds inRecords
          (fun record => { record with nodeId := none }) other).mpr (Or.inr ⟨member, apart⟩)
        have afterPlace := (mem_updateAt released.recordIds freed
          (fun record => { record with nodeId := some target.id }) other).mpr
            (Or.inr ⟨afterRelease, apart⟩)
        exact mem_map.mpr ⟨other, afterPlace, if_neg apart⟩
      refine ⟨not_le.mp full, rfl, ?_, kept, ?_⟩
      · have first : Grows fleet (fleet.release node.id record.id record.weight) := by
          intro other member accepts
          rcases (mem_updateAt balanced.nodeIds inNodes _ other).mp member with
            rfl | ⟨inFleet, -⟩
          · simp [isPlaceable, drains] at accepts
          · exact ⟨other, inFleet, rfl, le_refl _⟩
        exact first.trans (place_grows _ target.id record.id record.weight weighs released.doubles)
      · intro other member named
        rw [eq_of_key balanced.recordIds member inRecords named]
        refine ⟨target, inTargets, placeable, ?_⟩
        have afterPlace := (mem_updateAt released.recordIds freed
          (fun record => { record with nodeId := some target.id }) _).mpr (Or.inl rfl)
        exact mem_map.mpr ⟨_, afterPlace, if_pos rfl⟩

theorem same_target {fleet earlier : Fleet} (same : Same fleet earlier) (target : Node)
    (member : target ∈ fleet.nodes) (placeable : isPlaceable target = true) :
    ∃ before ∈ earlier.nodes, before.id = target.id ∧ isPlaceable before = true := by
  obtain ⟨before, present, sameId, -, health⟩ := fixed_counterpart same.nodes target member
  refine ⟨before, present, sameId, ?_⟩
  rw [isPlaceable, health]
  exact placeable

variable (drainBatch : Rat)

theorem cameras_fate {nodeId : Text} (cameras : List Text) (fleet : Fleet) (moved : Nat)
    (draining : Draining nodeId fleet cameras) (within : moved ≤ ⌈drainBatch⌉₊) :
    Grows fleet (cameras.foldl (drainCamera drainBatch nodeId) (fleet, moved)).1 ∧
      (∀ record ∈ fleet.records, record.id ∉ cameras →
        record ∈ (cameras.foldl (drainCamera drainBatch nodeId) (fleet, moved)).1.records) ∧
      ∃ gone : List Text, gone.length + moved ≤ ⌈drainBatch⌉₊ ∧
        ∀ record ∈ fleet.records, record.id ∈ cameras →
          record ∈ (cameras.foldl (drainCamera drainBatch nodeId) (fleet, moved)).1.records ∨
            record.id ∈ gone ∧ ∃ target ∈ fleet.nodes, isPlaceable target = true ∧
              record.drained target.id ∈
                (cameras.foldl (drainCamera drainBatch nodeId) (fleet, moved)).1.records := by
  induction cameras generalizing fleet moved with
  | nil =>
    refine ⟨Grows.refl fleet, fun record member _ => member, [], ?_, nofun⟩
    rw [length_nil, Nat.zero_add]
    exact within
  | cons cameraId rest ih =>
    obtain ⟨fresh, -⟩ := nodup_cons.mp draining.distinct
    obtain ⟨next, same⟩ := draining.camera drainBatch moved
    rw [foldl_cons]
    rcases drainCamera_cases draining drainBatch moved with still | ⟨less, count, grows, kept, leaves⟩
    · rw [still] at next ⊢
      obtain ⟨grows, others, gone, bound, fates⟩ := ih fleet moved next within
      refine ⟨grows, ?_, gone, bound, ?_⟩
      · intro record member apart
        exact others record member fun later => apart (mem_cons_of_mem _ later)
      · intro record member listed
        rcases mem_cons.mp listed with rfl | later
        · exact Or.inl (others record member fresh)
        · exact fates record member later
    · have room : moved + 1 ≤ ⌈drainBatch⌉₊ := Nat.lt_ceil.mpr less
      generalize drainCamera drainBatch nodeId (fleet, moved) cameraId = so at *
      obtain ⟨after, now⟩ := so
      cases count
      obtain ⟨later, others, gone, bound, fates⟩ := ih after (moved + 1) next room
      refine ⟨grows.trans later, ?_, cameraId :: gone, ?_, ?_⟩
      · intro record member apart
        rw [mem_cons, not_or] at apart
        exact others record (kept record member apart.1) apart.2
      · rw [length_cons]
        omega
      · intro record member listed
        by_cases here : record.id = cameraId
        · right
          obtain ⟨target, inNodes, placeable, placed⟩ := leaves record member here
          refine ⟨?_, target, inNodes, placeable, ?_⟩
          · rw [here]
            exact mem_cons_self
          · apply others _ placed
            show record.id ∉ rest
            rw [here]
            exact fresh
        · have inRest := (mem_cons.mp listed).resolve_left here
          rcases fates record (kept record member here) inRest with
            stays | ⟨left', target, inNodes, placeable, placed⟩
          · exact Or.inl stays
          · right
            obtain ⟨before, present, sameId, accepts⟩ := same_target same target inNodes placeable
            refine ⟨mem_cons_of_mem _ left', before, present, accepts, ?_⟩
            rw [sameId]
            exact placed

theorem drainNode_fate (fleet : Fleet) (nodeId : Text) (balanced : Balanced fleet) :
    Grows fleet (drainNode drainBatch fleet nodeId) ∧
      (∀ record ∈ fleet.records, record.nodeId ≠ some nodeId →
        record ∈ (drainNode drainBatch fleet nodeId).records) ∧
      ∃ gone : List Text, gone.length ≤ ⌈drainBatch⌉₊ ∧
        ∀ record ∈ fleet.records, record.nodeId = some nodeId →
          record ∈ (drainNode drainBatch fleet nodeId).records ∨
            record.id ∈ gone ∧
              (∃ node ∈ fleet.nodes, node.id = nodeId ∧ node.health = .draining) ∧
              ∃ target ∈ fleet.nodes, isPlaceable target = true ∧
                record.drained target.id ∈ (drainNode drainBatch fleet nodeId).records := by
  have still : Grows fleet fleet ∧ (∀ record ∈ fleet.records, record.nodeId ≠ some nodeId →
      record ∈ fleet.records) ∧ ∃ gone : List Text, gone.length ≤ ⌈drainBatch⌉₊ ∧
        ∀ record ∈ fleet.records, record.nodeId = some nodeId → record ∈ fleet.records ∨
          record.id ∈ gone ∧
            (∃ node ∈ fleet.nodes, node.id = nodeId ∧ node.health = .draining) ∧
            ∃ target ∈ fleet.nodes, isPlaceable target = true ∧
              record.drained target.id ∈ fleet.records :=
    ⟨Grows.refl fleet, fun record member _ => member, [], Nat.zero_le _,
      fun record member _ => Or.inl member⟩
  unfold drainNode
  split
  · exact still
  · rename_i node located
    obtain ⟨inNodes, rfl⟩ := lookup_mem located
    split
    · rename_i drains
      have draining : Draining node.id fleet node.cameras :=
        ⟨balanced, ⟨node, inNodes, rfl, drains⟩, balanced.distinctCameras node inNodes,
          fun cameraId member => (balanced.cameras node inNodes cameraId).mp member⟩
      obtain ⟨grows, others, gone, bound, fates⟩ :=
        cameras_fate drainBatch node.cameras fleet 0 draining (Nat.zero_le _)
      refine ⟨grows, ?_, gone, bound, ?_⟩
      · intro record member elsewhere
        apply others record member
        intro listed
        obtain ⟨other, inRecords, named, home⟩ := draining.housed record.id listed
        rw [eq_of_key balanced.recordIds inRecords member named] at home
        exact elsewhere home
      · intro record member home
        have listed := (balanced.cameras node inNodes record.id).mpr ⟨record, member, rfl, home⟩
        rcases fates record member listed with stays | ⟨left', target, inTargets, accepts, placed⟩
        · exact Or.inl stays
        · exact Or.inr ⟨left', ⟨node, inNodes, rfl, drains⟩, target, inTargets, accepts, placed⟩
    · exact still

theorem drained_fate (nodeIds : List Text) (fleet : Fleet) (balanced : Balanced fleet)
    (distinct : nodeIds.Nodup) : Grows fleet (nodeIds.foldl (drainNode drainBatch) fleet) ∧
      (∀ record ∈ fleet.records,
        record ∈ (nodeIds.foldl (drainNode drainBatch) fleet).records ∨
          ∃ nodeId ∈ nodeIds, record.nodeId = some nodeId ∧
            (∃ node ∈ fleet.nodes, node.id = nodeId ∧ node.health = .draining) ∧
            ∃ target ∈ fleet.nodes, isPlaceable target = true ∧
              record.drained target.id ∈ (nodeIds.foldl (drainNode drainBatch) fleet).records) ∧
      ∀ nodeId, ∃ gone : List Text, gone.length ≤ ⌈drainBatch⌉₊ ∧
        ∀ record ∈ fleet.records, record.nodeId = some nodeId →
          record ∈ (nodeIds.foldl (drainNode drainBatch) fleet).records ∨ record.id ∈ gone := by
  induction nodeIds generalizing fleet with
  | nil =>
    exact ⟨Grows.refl fleet, fun record member => Or.inl member,
      fun _ => ⟨[], Nat.zero_le _, fun record member _ => Or.inl member⟩⟩
  | cons first rest ih =>
    obtain ⟨fresh, distinct'⟩ := nodup_cons.mp distinct
    obtain ⟨next, same⟩ := drainNode_balanced drainBatch fleet first balanced
    obtain ⟨grows, others, gone, bound, fates⟩ := drainNode_fate drainBatch fleet first balanced
    obtain ⟨later, fates', bounds⟩ := ih _ next distinct'
    -- a record of the later fleet, told from the earlier one
    have told : ∀ record ∈ (drainNode drainBatch fleet first).records,
        record ∈ (rest.foldl (drainNode drainBatch) (drainNode drainBatch fleet first)).records ∨
          ∃ nodeId ∈ rest, record.nodeId = some nodeId ∧
            (∃ node ∈ fleet.nodes, node.id = nodeId ∧ node.health = .draining) ∧
            ∃ target ∈ fleet.nodes, isPlaceable target = true ∧ record.drained target.id ∈
              (rest.foldl (drainNode drainBatch) (drainNode drainBatch fleet first)).records := by
      intro record member
      rcases fates' record member with
        stays | ⟨nodeId, listed, home, ⟨node, inNodes, named, drains⟩, target, inTargets, accepts,
          placed⟩
      · exact Or.inl stays
      · right
        obtain ⟨before, present, sameId, -, health⟩ := fixed_counterpart same.nodes node inNodes
        obtain ⟨goal, inGoals, goalId, goalAccepts⟩ := same_target same target inTargets accepts
        refine ⟨nodeId, listed, home, ⟨before, present, sameId.trans named, health.trans drains⟩,
          goal, inGoals, goalAccepts, ?_⟩
        rw [goalId]
        exact placed
    have settled : ∀ record ∈ (drainNode drainBatch fleet first).records,
        record.nodeId = some first →
        record ∈ (rest.foldl (drainNode drainBatch) (drainNode drainBatch fleet first)).records := by
      intro record member home
      rcases told record member with stays | ⟨nodeId, listed, home', -⟩
      · exact stays
      · rw [home] at home'
        cases home'
        exact absurd listed fresh
    refine ⟨grows.trans later, ?_, ?_⟩
    · intro record member
      by_cases here : record.nodeId = some first
      · rcases fates record member here with stays | ⟨-, drains, target, inTargets, accepts, placed⟩
        · exact Or.inl (settled record stays here)
        · right
          refine ⟨first, mem_cons_self, here, drains, target, inTargets, accepts, ?_⟩
          rcases told _ placed with stays | ⟨nodeId, -, home, ⟨node, inNodes, named, drains'⟩, -⟩
          · exact stays
          · have landed : some target.id = some nodeId := home
            rw [← named] at landed
            have one := eq_of_key balanced.nodeIds inTargets inNodes (Option.some.inj landed)
            rw [one, isPlaceable, drains'] at accepts
            cases accepts
      · rcases told record (others record member here) with stays | ⟨nodeId, listed, moved⟩
        · exact Or.inl stays
        · exact Or.inr ⟨nodeId, mem_cons_of_mem _ listed, moved⟩
    · intro nodeId
      by_cases here : nodeId = first
      · refine ⟨gone, bound, ?_⟩
        intro record member home
        rw [here] at home
        rcases fates record member home with stays | ⟨left', -⟩
        · exact Or.inl (settled record stays home)
        · exact Or.inr left'
      · obtain ⟨gone', bound', fates''⟩ := bounds nodeId
        refine ⟨gone', bound', ?_⟩
        intro record member home
        apply fates'' record _ home
        apply others record member
        rw [home]
        exact fun same => here (Option.some.inj same)

section Phases

variable (options : Options) (nowMs : Rat)

def registryNodes : List Node :=
  buildNodes (resolveSchedulerConfig options.config) (normalizeNodeStates options.nodeStates) nowMs
    options.nodes

def plannedWorkloads : List Workload := orderWorkloads (normalizeWorkloads options.workloads)

/-- The fleet and the queue after phase 1. -/
def retainedFleet : Fleet × List Record :=
  (plannedWorkloads options).foldl (retain (normalizePrevious options.previous))
    (⟨registryNodes options nowMs, []⟩, [])

/-- The fleet after phase 2. -/
def placedFleet : Fleet :=
  (retainedFleet options nowMs).2.foldl placeDeferred (retainedFleet options nowMs).1

theorem planFleet_phases : planFleet options nowMs =
    ((placedFleet options nowMs).nodes.map Node.id).foldl
      (drainNode (resolveSchedulerConfig options.config).drainBatch) (placedFleet options nowMs) :=
  rfl

theorem plannedWorkloads_ids : ((plannedWorkloads options).map Workload.id).Nodup ∧
    ∀ workload ∈ plannedWorkloads options, 0 < workload.weight := by
  obtain ⟨distinct, weighs, -⟩ := normalizeWorkloads_ids options.workloads
  have ordered := orderWorkloads_perm (normalizeWorkloads options.workloads)
  exact ⟨(ordered.map Workload.id).nodup_iff.mpr distinct,
    fun workload member => weighs workload (ordered.mem_iff.mp member)⟩

theorem retainedFleet_retained : Retained (normalizePrevious options.previous)
    (registryNodes options nowMs) (plannedWorkloads options) (retainedFleet options nowMs) := by
  obtain ⟨distinct, weighs⟩ := plannedWorkloads_ids options
  exact retained_all _ _ (plannedWorkloads options) [] _ weighs distinct
    ⟨empty_balanced options.config _ nowMs options.nodes, rfl, rfl, nodup_nil, nofun⟩

theorem retainedFleet_stayed : Stayed (normalizePrevious options.previous)
    (registryNodes options nowMs) (plannedWorkloads options) (retainedFleet options nowMs) := by
  obtain ⟨distinct, weighs⟩ := plannedWorkloads_ids options
  obtain ⟨-, registered⟩ := buildNodes_registered (resolveSchedulerConfig options.config)
    (normalizeNodeStates options.nodeStates) nowMs options.nodes
  refine stayed_all _ _ (plannedWorkloads options) [] _ weighs distinct
    ⟨empty_balanced options.config _ nowMs options.nodes, rfl, rfl, nodup_nil, nofun⟩ ?_
  refine ⟨?_, nofun, nofun, nofun⟩
  intro node member _
  exact (registered node member).2.1

theorem placedFleet_balanced : Balanced (placedFleet options nowMs) ∧
    Same (placedFleet options nowMs) (retainedFleet options nowMs).1 := by
  have retained := retainedFleet_retained options nowMs
  exact deferred_balanced _ _ retained.balanced retained.waiting

theorem planFleet_balanced : Balanced (planFleet options nowMs) ∧
    Same (planFleet options nowMs) (placedFleet options nowMs) := by
  exact drained_balanced _ _ _ (placedFleet_balanced options nowMs).1

theorem same_record {fleet earlier : Fleet} (same : Same fleet earlier) (record : Record)
    (member : record ∈ fleet.records) : ∃ before ∈ earlier.records, before.fixed = record.fixed := by
  have listed : record.fixed ∈ fleet.records.map Record.fixed := mem_map_of_mem member
  rw [same.records] at listed
  obtain ⟨before, present, fixed⟩ := mem_map.mp listed
  exact ⟨before, present, fixed⟩

variable (record : Record)

theorem placedFleet_cases (member : record ∈ (placedFleet options nowMs).records) :
    (record ∈ (retainedFleet options nowMs).1.records ∧
      (record.nodeId = none → NoRoom (placedFleet options nowMs).nodes record.weight)) ∨
    ∃ before ∈ (retainedFleet options nowMs).1.records, before.nodeId = none ∧
      ∃ target ∈ (retainedFleet options nowMs).1.nodes, isPlaceable target = true ∧
        double (target.load + before.weight) ≤ target.capacity ∧
        record = { before with nodeId := some target.id } := by
  have retained := retainedFleet_retained options nowMs
  have stayed := retainedFleet_stayed options nowMs
  obtain ⟨balanced, same⟩ := placedFleet_balanced options nowMs
  obtain ⟨-, others, fates⟩ := deferred_fate _ _ retained.balanced retained.waiting
  obtain ⟨before, inRetained, fixed⟩ := same_record same record member
  have sameId : before.id = record.id := congrArg Prod.fst fixed
  cases home : before.nodeId with
  | none =>
    rcases fates before (stayed.queued before inRetained home) with
      ⟨stays, full⟩ | ⟨target, inNodes, accepts, room, placed⟩
    · have one := eq_of_key balanced.recordIds stays member sameId
      rw [one] at inRetained full
      exact Or.inl ⟨inRetained, fun _ => full⟩
    · have one := eq_of_key balanced.recordIds placed member sameId
      exact Or.inr ⟨before, inRetained, home, target, inNodes, accepts, room, one.symm⟩
  | some nodeId =>
    have unqueued : before.id ∉ (retainedFleet options nowMs).2.map Record.id := by
      intro listed
      obtain ⟨queued, inQueue, named⟩ := mem_map.mp listed
      obtain ⟨known, homeless⟩ := retained.waiting.listed queued inQueue
      rw [eq_of_key retained.balanced.recordIds known inRetained named, home] at homeless
      cases homeless
    have one := eq_of_key balanced.recordIds (others before inRetained unqueued) member sameId
    rw [one] at inRetained home
    refine Or.inl ⟨inRetained, ?_⟩
    intro homeless
    rw [home] at homeless
    cases homeless

theorem planFleet_cases (member : record ∈ (planFleet options nowMs).records) :
    record ∈ (placedFleet options nowMs).records ∨
      ∃ before ∈ (placedFleet options nowMs).records, ∃ nodeId, before.nodeId = some nodeId ∧
        (∃ node ∈ (placedFleet options nowMs).nodes, node.id = nodeId ∧ node.health = .draining) ∧
        ∃ target ∈ (placedFleet options nowMs).nodes, isPlaceable target = true ∧
          record = before.drained target.id := by
  obtain ⟨placed, -⟩ := placedFleet_balanced options nowMs
  obtain ⟨balanced, same⟩ := planFleet_balanced options nowMs
  obtain ⟨before, inPlaced, fixed⟩ := same_record same record member
  have sameId : before.id = record.id := congrArg Prod.fst fixed
  obtain ⟨-, fates, -⟩ := drained_fate (resolveSchedulerConfig options.config).drainBatch _ _ placed
    placed.nodeIds
  rcases fates before inPlaced with
    stays | ⟨nodeId, -, home, drains, target, inNodes, accepts, moved⟩
  · have one := eq_of_key balanced.recordIds stays member sameId
    rw [one] at inPlaced
    exact Or.inl inPlaced
  · have one := eq_of_key balanced.recordIds moved member sameId
    exact Or.inr ⟨before, inPlaced, nodeId, home, drains, target, inNodes, accepts, one.symm⟩

theorem planFleet_grows : Grows (placedFleet options nowMs) (planFleet options nowMs) := by
  obtain ⟨placed, -⟩ := placedFleet_balanced options nowMs
  exact (drained_fate _ _ _ placed placed.nodeIds).1

/-- What the planner leaves without a node fits nowhere in the end. -/
theorem homeless_noRoom (member : record ∈ (planFleet options nowMs).records)
    (homeless : record.nodeId = none) : NoRoom (planFleet options nowMs).nodes record.weight := by
  rcases planFleet_cases options nowMs record member with
    placed | ⟨before, -, nodeId, -, -, target, -, -, rfl⟩
  · rcases placedFleet_cases options nowMs record placed with
      ⟨-, full⟩ | ⟨before, -, -, target, -, -, -, rfl⟩
    · exact (full homeless).grows (planFleet_grows options nowMs)
    · cases homeless
  · cases homeless

theorem draining_owner (member : record ∈ (placedFleet options nowMs).records) (nodeId : Text)
    (home : record.nodeId = some nodeId)
    (drains : ∃ node ∈ (placedFleet options nowMs).nodes,
      node.id = nodeId ∧ node.health = .draining) :
    record ∈ (retainedFleet options nowMs).1.records ∧ record.previousNodeId = some nodeId := by
  have retained := retainedFleet_retained options nowMs
  have stayed := retainedFleet_stayed options nowMs
  obtain ⟨-, same⟩ := placedFleet_balanced options nowMs
  rcases placedFleet_cases options nowMs record member with
    ⟨inRetained, -⟩ | ⟨before, -, -, target, inNodes, accepts, -, rfl⟩
  · refine ⟨inRetained, ?_⟩
    obtain ⟨node, -, -, -, workload, stays, named⟩ :=
      (stayed.homes record inRetained nodeId).mp home
    have owner := stay_owned workload _ _ _ _ _ stays
    have listed : record.fixed ∈ (retainedFleet options nowMs).1.records.map Record.fixed :=
      mem_map_of_mem inRetained
    rw [retained.records] at listed
    obtain ⟨source, -, fixed⟩ := mem_map.mp listed
    have sourceId : source.id = record.id := congrArg Prod.fst fixed
    have before : (normalizePrevious options.previous).owner source.id = record.previousNodeId :=
      congrArg (fun fixed => fixed.2.2.1) fixed
    rw [← before, sourceId, ← named]
    exact owner
  · obtain ⟨node, inPlaced, named, drains⟩ := drains
    obtain ⟨other, present, sameId, -, health⟩ := fixed_counterpart same.nodes node inPlaced
    have landed : target.id = nodeId := Option.some.inj home
    have one := eq_of_key retained.balanced.nodeIds inNodes present
      (landed.trans (named.symm.trans sameId.symm))
    rw [one, isPlaceable, health, drains] at accepts
    cases accepts

end Phases

end DracVms.Scheduler
