import DracVms.Scheduler.Plan

namespace DracVms.Scheduler

open List

open Json (Text field setField setField_keys setField_nodup mem_setField)
open JsString (trim unitsLe)
open KeyedList
open Binary64 (double Exact double_mono double_idem double_zero double_nonneg)

/-- What a record weighs on a node. -/
def share (nodeId : Text) (record : Record) : Rat :=
  if record.nodeId = some nodeId then record.weight else 0

/-- The books of a fleet balance, its loads as far as their sums are exact. -/
structure Balanced (fleet : Fleet) : Prop where
  nodeIds : (fleet.nodes.map Node.id).Nodup
  recordIds : (fleet.records.map Record.id).Nodup
  weights : ∀ record ∈ fleet.records, 0 < record.weight
  homes : ∀ record ∈ fleet.records, ∀ nodeId, record.nodeId = some nodeId →
    ∃ node ∈ fleet.nodes, node.id = nodeId ∧ node.health ≠ .dead
  doubles : ∀ node ∈ fleet.nodes, double node.load = node.load
  loads : Exact (fleet.records.map Record.weight) →
    ∀ node ∈ fleet.nodes, node.load = (fleet.records.map (share node.id)).sum
  capacities : ∀ node ∈ fleet.nodes, node.load ≤ node.capacity
  distinctCameras : ∀ node ∈ fleet.nodes, node.cameras.Nodup
  cameras : ∀ node ∈ fleet.nodes, ∀ cameraId, cameraId ∈ node.cameras ↔
    ∃ record ∈ fleet.records, record.id = cameraId ∧ record.nodeId = some node.id

/-- What no phase changes of a node. -/
def Node.fixed (node : Node) : Text × Option Rat × Rat × Health :=
  (node.id, node.declaredCapacity, node.capacity, node.health)

/-- What no phase changes of a record. -/
def Record.fixed (record : Record) : Text × Rat × Option Text × Option Rat :=
  (record.id, record.weight, record.previousNodeId, record.previousToken)

variable (fleet : Fleet)

section

variable (nodeId recordId : Text) (weight : Rat)

theorem place_nodes_fixed :
    (fleet.place nodeId recordId weight).nodes.map Node.fixed = fleet.nodes.map Node.fixed :=
  map_updateAt _ _ _ _ _ fun _ => rfl

theorem place_records_fixed : (fleet.place nodeId recordId weight).records.map Record.fixed =
      fleet.records.map Record.fixed :=
  map_updateAt _ _ _ _ _ fun _ => rfl

theorem release_nodes_fixed :
    (fleet.release nodeId recordId weight).nodes.map Node.fixed = fleet.nodes.map Node.fixed :=
  map_updateAt _ _ _ _ _ fun _ => rfl

theorem release_records_fixed : (fleet.release nodeId recordId weight).records.map Record.fixed =
      fleet.records.map Record.fixed :=
  map_updateAt _ _ _ _ _ fun _ => rfl

end

theorem giveReason_records_fixed (recordId : Text) (reason : Reason) :
    (fleet.giveReason recordId reason).records.map Record.fixed = fleet.records.map Record.fixed :=
  map_updateAt _ _ _ _ _ fun _ => rfl

theorem ids_of_fixed {α β κ : Type} {first second : List α} (fixed : α → κ × β)
    (same : first.map fixed = second.map fixed) :
    first.map (fun a => (fixed a).1) = second.map fun a => (fixed a).1 := by
  have heads := congrArg (List.map Prod.fst) same
  rwa [map_map, map_map] at heads

theorem shares_sum (nodeId : Text) (records : List Record) : (records.map (share nodeId)).sum =
    ((records.filter fun record => record.nodeId = some nodeId).map Record.weight).sum := by
  induction records with
  | nil => rfl
  | cons record rest ih =>
    rw [map_cons, sum_cons, ih, filter_cons, share]
    by_cases home : record.nodeId = some nodeId
    · rw [if_pos home, if_pos (decide_eq_true home), map_cons, sum_cons]
    · rw [if_neg home, if_neg (by simpa using home), zero_add]

theorem shares_double (nodeId : Text) {records : List Record}
    (exact_ : Exact (records.map Record.weight)) :
    double (records.map (share nodeId)).sum = (records.map (share nodeId)).sum := by
  rw [shares_sum]
  exact exact_ _ ((filter_sublist).map _).subperm

variable {record : Record}

theorem Balanced.change {fleet : Fleet} (balanced : Balanced fleet) {node : Node}
    (inNodes : node ∈ fleet.nodes) (inRecords : record ∈ fleet.records) (home : Option Text)
    (rebook : Node → Node) (keeps : ∀ n, (rebook n).fixed = n.fixed)
    (before : ∀ id, record.nodeId = some id → id = node.id)
    (after : ∀ id, home = some id → id = node.id)
    (living : home = some node.id → node.health ≠ .dead)
    (load : (rebook node).load = double (node.load - share node.id record + share node.id
      { record with nodeId := home }))
    (room : (rebook node).load ≤ node.capacity) (distinct : (rebook node).cameras.Nodup)
    (cameras : ∀ cameraId, cameraId ∈ (rebook node).cameras ↔ cameraId = record.id ∧
      home = some node.id ∨ cameraId ≠ record.id ∧ cameraId ∈ node.cameras) :
    Balanced ⟨updateAt Node.id fleet.nodes node.id rebook,
      updateAt Record.id fleet.records record.id fun record => { record with nodeId := home }⟩ := by
  have nodes := mem_updateAt balanced.nodeIds inNodes rebook
  have records := mem_updateAt balanced.recordIds inRecords fun record =>
    { record with nodeId := home }
  have sums := fun id => sum_updateAt balanced.recordIds inRecords
    (fun record => { record with nodeId := home }) (share id)
  have sameId : (rebook node).id = node.id := congrArg Prod.fst (keeps node)
  have sameCapacity : (rebook node).capacity = node.capacity :=
    congrArg (fun fixed => fixed.2.2.1) (keeps node)
  have sameHealth : (rebook node).health = node.health :=
    congrArg (fun fixed => fixed.2.2.2) (keeps node)
  -- the records of another node are the same ones
  have elsewhere : ∀ id, id ≠ node.id → ∀ cameraId,
      (∃ other ∈ updateAt Record.id fleet.records record.id (fun record =>
        { record with nodeId := home }), other.id = cameraId ∧ other.nodeId = some id) ↔
      ∃ other ∈ fleet.records, other.id = cameraId ∧ other.nodeId = some id := by
    intro id apart cameraId
    constructor
    · rintro ⟨other, member, named, at_id⟩
      rcases (records other).mp member with rfl | ⟨old, -⟩
      · exact absurd (after id at_id) apart
      · exact ⟨other, old, named, at_id⟩
    · rintro ⟨other, member, named, at_id⟩
      refine ⟨other, (records other).mpr (Or.inr ⟨member, ?_⟩), named, at_id⟩
      intro same
      rw [eq_of_key balanced.recordIds member inRecords same] at at_id
      exact apart (before id at_id)
  have weights : (updateAt Record.id fleet.records record.id fun record =>
      { record with nodeId := home }).map Record.weight = fleet.records.map Record.weight :=
    map_updateAt _ _ _ _ _ fun _ => rfl
  refine ⟨?_, ?_, ?_, ?_, ?_, ?_, ?_, ?_, ?_⟩
  · rw [map_updateAt Node.id fleet.nodes node.id rebook Node.id fun n => congrArg Prod.fst (keeps n)]
    exact balanced.nodeIds
  · have ids := map_updateAt Record.id fleet.records record.id
      (fun record => { record with nodeId := home }) Record.id fun _ => rfl
    rw [ids]
    exact balanced.recordIds
  · intro other member
    rcases (records other).mp member with rfl | ⟨old, -⟩
    · exact balanced.weights record inRecords
    · exact balanced.weights other old
  · intro other member nodeId at_id
    rcases (records other).mp member with rfl | ⟨old, -⟩
    · have named := after nodeId at_id
      refine ⟨rebook node, (nodes _).mpr (Or.inl rfl), sameId.trans named.symm, ?_⟩
      rw [sameHealth]
      apply living
      rw [← named]
      exact at_id
    · obtain ⟨host, inHosts, named, alive⟩ := balanced.homes other old nodeId at_id
      by_cases same : host.id = node.id
      · rw [eq_of_key balanced.nodeIds inHosts inNodes same] at named alive
        exact ⟨rebook node, (nodes _).mpr (Or.inl rfl), sameId.trans named, sameHealth ▸ alive⟩
      · exact ⟨host, (nodes _).mpr (Or.inr ⟨inHosts, same⟩), named, alive⟩
  · intro host member
    rcases (nodes host).mp member with rfl | ⟨inHosts, -⟩
    · rw [load, double_idem]
    · exact balanced.doubles host inHosts
  · intro exact_ host member
    have kept : Exact (fleet.records.map Record.weight) := by rwa [← weights]
    rcases (nodes host).mp member with rfl | ⟨inHosts, apart⟩
    · rw [load, sameId, balanced.loads kept node inNodes, ← sums node.id]
      exact shares_double node.id exact_
    · have idle : share host.id record = 0 :=
        if_neg fun at_id => apart (before host.id at_id)
      have still : share host.id { record with nodeId := home } = 0 :=
        if_neg fun at_id => apart (after host.id at_id)
      have gain := sums host.id
      rw [idle, still, sub_zero, add_zero] at gain
      rw [balanced.loads kept host inHosts]
      exact gain.symm
  · intro host member
    rcases (nodes host).mp member with rfl | ⟨inHosts, -⟩
    · rw [sameCapacity]
      exact room
    · exact balanced.capacities host inHosts
  · intro host member
    rcases (nodes host).mp member with rfl | ⟨inHosts, -⟩
    · exact distinct
    · exact balanced.distinctCameras host inHosts
  · intro host member cameraId
    rcases (nodes host).mp member with rfl | ⟨inHosts, apart⟩
    · rw [cameras cameraId, sameId, balanced.cameras node inNodes cameraId]
      constructor
      · rintro (⟨rfl, at_node⟩ | ⟨other, listed⟩)
        · exact ⟨_, (records _).mpr (Or.inl rfl), rfl, at_node⟩
        · obtain ⟨kept, old, named, at_node⟩ := listed
          refine ⟨kept, (records _).mpr (Or.inr ⟨old, ?_⟩), named, at_node⟩
          rw [named]
          exact other
      · rintro ⟨kept, member, named, at_node⟩
        rcases (records kept).mp member with rfl | ⟨old, other⟩
        · exact Or.inl ⟨named.symm, at_node⟩
        · exact Or.inr ⟨named ▸ other, kept, old, named, at_node⟩
    · rw [balanced.cameras host inHosts cameraId]
      exact (elsewhere host.id apart cameraId).symm

theorem Balanced.place {fleet : Fleet} (balanced : Balanced fleet) {node : Node}
    (inNodes : node ∈ fleet.nodes) (inRecords : record ∈ fleet.records)
    (homeless : record.nodeId = none) (living : node.health ≠ .dead)
    (room : double (node.load + record.weight) ≤ node.capacity) :
    Balanced (fleet.place node.id record.id record.weight) := by
  have absent : record.id ∉ node.cameras := by
    intro listed
    obtain ⟨other, inOthers, sameId, home⟩ := (balanced.cameras node inNodes record.id).mp listed
    rw [eq_of_key balanced.recordIds inOthers inRecords sameId, homeless] at home
    cases home
  refine balanced.change inNodes inRecords (some node.id) _ (fun _ => rfl) ?_ ?_ (fun _ => living)
    ?_ room ?_ ?_
  · intro id at_id
    rw [homeless] at at_id
    cases at_id
  · rintro id ⟨⟩
    rfl
  · rw [share, share, homeless, if_neg nofun, if_pos rfl, sub_zero]
  · refine nodup_append.mpr ⟨balanced.distinctCameras node inNodes, nodup_singleton _, ?_⟩
    rintro a listed b single rfl
    rw [mem_singleton.mp single] at listed
    exact absent listed
  · intro cameraId
    rw [mem_append, mem_singleton]
    constructor
    · rintro (listed | rfl)
      · exact Or.inr ⟨fun same => absent (same ▸ listed), listed⟩
      · exact Or.inl ⟨rfl, rfl⟩
    · rintro (⟨rfl, -⟩ | ⟨-, listed⟩)
      · exact Or.inr rfl
      · exact Or.inl listed

theorem Balanced.release {fleet : Fleet} (balanced : Balanced fleet) {node : Node}
    (inNodes : node ∈ fleet.nodes) (inRecords : record ∈ fleet.records)
    (home : record.nodeId = some node.id) :
    Balanced (fleet.release node.id record.id record.weight) := by
  have weighs : 0 < record.weight := balanced.weights record inRecords
  have distinct := balanced.distinctCameras node inNodes
  refine balanced.change inNodes inRecords none _ (fun _ => rfl) ?_ nofun nofun ?_ ?_
    (distinct.erase record.id) ?_
  · intro id at_id
    rw [home] at at_id
    exact (Option.some.inj at_id).symm
  · rw [share, share, if_pos home, if_neg nofun, add_zero]
  · calc double (node.load - record.weight) ≤ double node.load :=
          double_mono (sub_le_self _ weighs.le)
      _ = node.load := balanced.doubles node inNodes
      _ ≤ node.capacity := balanced.capacities node inNodes
  · intro cameraId
    rw [List.Nodup.mem_erase_iff distinct]
    constructor
    · exact Or.inr
    · rintro (⟨-, impossible⟩ | kept)
      · cases impossible
      · exact kept

theorem Balanced.giveReason {fleet : Fleet} (balanced : Balanced fleet) (recordId : Text)
    (reason : Reason) : Balanced (fleet.giveReason recordId reason) := by
  have listed : ∀ record ∈ (fleet.giveReason recordId reason).records,
      ∃ old ∈ fleet.records, old.fixed = record.fixed ∧ old.nodeId = record.nodeId := by
    intro record member
    obtain ⟨old, inRecords, rfl⟩ := mem_map.mp member
    refine ⟨old, inRecords, ?_, ?_⟩ <;> split <;> rfl
  have kept : ∀ old ∈ fleet.records, ∃ record ∈ (fleet.giveReason recordId reason).records,
      old.fixed = record.fixed ∧ old.nodeId = record.nodeId := by
    intro old inRecords
    refine ⟨_, mem_map_of_mem inRecords, ?_, ?_⟩ <;> split <;> rfl
  refine ⟨balanced.nodeIds, ?_, ?_, ?_, balanced.doubles, ?_, balanced.capacities,
    balanced.distinctCameras, ?_⟩
  · have ids : (fleet.giveReason recordId reason).records.map Record.id =
        fleet.records.map Record.id :=
      ids_of_fixed Record.fixed (giveReason_records_fixed fleet recordId reason)
    rw [ids]
    exact balanced.recordIds
  · intro record member
    obtain ⟨old, inRecords, fixed, -⟩ := listed record member
    have weight : old.weight = record.weight := congrArg (fun fixed => fixed.2.1) fixed
    rw [← weight]
    exact balanced.weights old inRecords
  · intro record member nodeId home
    obtain ⟨old, inRecords, -, same⟩ := listed record member
    exact balanced.homes old inRecords nodeId (same.trans home)
  · intro exact_ node member
    have weights : (fleet.giveReason recordId reason).records.map Record.weight =
        fleet.records.map Record.weight := map_updateAt _ _ _ _ _ fun _ => rfl
    rw [weights] at exact_
    have same : (fleet.giveReason recordId reason).records.map (share node.id) =
        fleet.records.map (share node.id) := map_updateAt _ _ _ _ _ fun _ => rfl
    rw [same]
    exact balanced.loads exact_ node member
  · intro node member cameraId
    rw [balanced.cameras node member cameraId]
    constructor
    · rintro ⟨old, inRecords, named, home⟩
      obtain ⟨record, inNew, fixed, same⟩ := kept old inRecords
      exact ⟨record, inNew, (congrArg Prod.fst fixed).symm.trans named, same.symm.trans home⟩
    · rintro ⟨record, inNew, named, home⟩
      obtain ⟨old, inRecords, fixed, same⟩ := listed record inNew
      exact ⟨old, inRecords, (congrArg Prod.fst fixed).trans named, same.trans home⟩

theorem Balanced.enter {fleet : Fleet} (balanced : Balanced fleet) (record : Record)
    (homeless : record.nodeId = none) (weighs : 0 < record.weight)
    (fresh : record.id ∉ fleet.records.map Record.id) :
    Balanced { fleet with records := fleet.records ++ [record] } := by
  have members : ∀ other, other ∈ fleet.records ++ [record] →
      other ∈ fleet.records ∨ other = record := by
    intro other member
    rw [mem_append, mem_singleton] at member
    exact member
  refine ⟨balanced.nodeIds, ?_, ?_, ?_, balanced.doubles, ?_, balanced.capacities,
    balanced.distinctCameras, ?_⟩
  · rw [map_append]
    refine nodup_append.mpr ⟨balanced.recordIds, nodup_singleton _, ?_⟩
    rintro a listed b single rfl
    rw [map_singleton, mem_singleton] at single
    rw [single] at listed
    exact fresh listed
  · intro other member
    rcases members other member with old | rfl
    · exact balanced.weights other old
    · exact weighs
  · intro other member nodeId home
    rcases members other member with old | rfl
    · exact balanced.homes other old nodeId home
    · rw [homeless] at home
      cases home
  · intro exact_ node member
    have nothing : share node.id record = 0 := by
      rw [share, homeless, if_neg nofun]
    rw [map_append, sum_append, map_singleton, sum_singleton, nothing, add_zero]
    exact balanced.loads (exact_.subperm ((sublist_append_left _ _).map _).subperm) node member
  · intro node member cameraId
    rw [balanced.cameras node member cameraId]
    constructor
    · rintro ⟨other, old, named, home⟩
      exact ⟨other, mem_append_left _ old, named, home⟩
    · rintro ⟨other, inNew, named, home⟩
      rcases members other inNew with old | rfl
      · exact ⟨other, old, named, home⟩
      · rw [homeless] at home
        cases home

theorem better_some (weight : Rat) (best : Option (Node × Rat)) (node : Node)
    (chosen : Node × Rat) (taken : better weight best node = some chosen) :
    best = some chosen ∨ chosen.1 = node ∧ isPlaceable node = true ∧
      double (node.load + weight) ≤ node.capacity := by
  unfold better at taken
  split at taken
  · exact Or.inl taken
  · rename_i placeable
    rw [Bool.not_eq_true', Bool.not_eq_false] at placeable
    dsimp only at taken
    split at taken
    · exact Or.inl taken
    · rename_i room
      have fits : isPlaceable node = true ∧ double (node.load + weight) ≤ node.capacity :=
        ⟨placeable, not_lt.mp room⟩
      split at taken
      · cases taken
        exact Or.inr ⟨rfl, fits⟩
      · split at taken
        · cases taken
          exact Or.inr ⟨rfl, fits⟩
        · exact Or.inl taken

theorem pickTarget_some (nodes : List Node) (weight : Rat) (target : Node)
    (picked : pickTarget nodes weight = some target) :
    target ∈ nodes ∧ isPlaceable target = true ∧
      double (target.load + weight) ≤ target.capacity := by
  have chosen : ∀ (rest : List Node) (best : Option (Node × Rat)) (found : Node × Rat),
      rest.foldl (better weight) best = some found → best = some found ∨
        found.1 ∈ rest ∧ isPlaceable found.1 = true ∧
          double (found.1.load + weight) ≤ found.1.capacity := by
    intro rest
    induction rest with
    | nil => exact fun best found same => Or.inl same
    | cons node rest ih =>
      intro best found same
      rcases ih _ found same with earlier | ⟨member, fits⟩
      · rcases better_some weight best node found earlier with old | ⟨rfl, fits⟩
        · exact Or.inl old
        · exact Or.inr ⟨mem_cons_self, fits⟩
      · exact Or.inr ⟨mem_cons_of_mem _ member, fits⟩
  obtain ⟨found, same, rfl⟩ := Option.map_eq_some_iff.mp picked
  rcases chosen nodes none found same with impossible | fits
  · cases impossible
  · exact fits

theorem living_of_placeable (node : Node) (placeable : isPlaceable node = true) :
    node.health ≠ .dead := by
  intro dead
  rw [isPlaceable, dead] at placeable
  cases placeable

/-- A fleet with the same nodes and records as another, whatever is assigned. -/
structure Same (fleet other : Fleet) : Prop where
  nodes : fleet.nodes.map Node.fixed = other.nodes.map Node.fixed
  records : fleet.records.map Record.fixed = other.records.map Record.fixed

theorem Same.trans {first second third : Fleet} (left : Same first second)
    (right : Same second third) : Same first third :=
  ⟨left.nodes.trans right.nodes, left.records.trans right.records⟩

theorem place_same (nodeId recordId : Text) (weight : Rat) :
    Same (fleet.place nodeId recordId weight) fleet :=
  ⟨place_nodes_fixed fleet nodeId recordId weight, place_records_fixed fleet nodeId recordId weight⟩

theorem release_same (nodeId recordId : Text) (weight : Rat) :
    Same (fleet.release nodeId recordId weight) fleet :=
  ⟨release_nodes_fixed fleet nodeId recordId weight,
    release_records_fixed fleet nodeId recordId weight⟩

theorem giveReason_same (recordId : Text) (reason : Reason) :
    Same (fleet.giveReason recordId reason) fleet :=
  ⟨rfl, giveReason_records_fixed fleet recordId reason⟩

/-- The records in the queue are those of the fleet, each once and without a node. -/
structure Waiting (fleet : Fleet) (queue : List Record) : Prop where
  distinct : (queue.map Record.id).Nodup
  listed : ∀ record ∈ queue, record ∈ fleet.records ∧ record.nodeId = none

theorem Waiting.place {fleet : Fleet} {queue : List Record} (waiting : Waiting fleet queue)
    (balanced : Balanced fleet) (nodeId : Text) (record : Record) (member : record ∈ fleet.records)
    (left : ∀ other ∈ queue, other.id ≠ record.id) :
    Waiting (fleet.place nodeId record.id record.weight) queue := by
  refine ⟨waiting.distinct, ?_⟩
  intro other inQueue
  obtain ⟨old, homeless⟩ := waiting.listed other inQueue
  exact ⟨(mem_updateAt balanced.recordIds member _ other).mpr
    (Or.inr ⟨old, left other inQueue⟩), homeless⟩

/-- The record of a workload, before any phase. -/
def Workload.fixed (previous : PreviousState) (workload : Workload) :
    Text × Rat × Option Text × Option Rat :=
  (workload.record (field previous.byCamera workload.id)).fixed

/-- What phase 1 has made of the workloads it has seen. -/
structure Retained (previous : PreviousState) (nodes : List Node) (seen : List Workload)
    (so : Fleet × List Record) : Prop where
  balanced : Balanced so.1
  nodes : so.1.nodes.map Node.fixed = nodes.map Node.fixed
  records : so.1.records.map Record.fixed = seen.map (Workload.fixed previous)
  waiting : Waiting so.1 so.2

section

variable {previous : PreviousState} {nodes : List Node} {seen : List Workload}
  {so : Fleet × List Record} (retained : Retained previous nodes seen so)

include retained

theorem Retained.recordIds : so.1.records.map Record.id = seen.map Workload.id := by
  have heads := congrArg (List.map Prod.fst) retained.records
  rwa [map_map, map_map] at heads

theorem Retained.retain (workload : Workload) (weighs : 0 < workload.weight)
    (fresh : workload.id ∉ seen.map Workload.id) :
    Retained previous nodes (seen ++ [workload]) (retain previous so workload) := by
  obtain ⟨fleet, queue⟩ := so
  have new : workload.id ∉ fleet.records.map Record.id := by
    rw [retained.recordIds]
    exact fresh
  have entered : ∀ reason, Retained previous nodes (seen ++ [workload])
      ({ fleet with records := fleet.records ++
          [{ workload.record (field previous.byCamera workload.id) with reason := reason }] },
        queue) := by
    intro reason
    refine ⟨retained.balanced.enter _ rfl weighs new, retained.nodes, ?_, ?_⟩
    · rw [map_append, map_append, retained.records]
      rfl
    · refine ⟨retained.waiting.distinct, ?_⟩
      intro record inQueue
      obtain ⟨old, homeless⟩ := retained.waiting.listed record inQueue
      exact ⟨mem_append_left _ old, homeless⟩
  have unqueued : ∀ record ∈ queue, record.id ≠ workload.id := by
    intro record inQueue same
    apply new
    rw [← same]
    exact mem_map_of_mem (retained.waiting.listed record inQueue).1
  have waits : ∀ reason, Retained previous nodes (seen ++ [workload])
      ({ fleet with records := fleet.records ++
          [{ workload.record (field previous.byCamera workload.id) with reason := some reason }] },
        queue ++
          [{ workload.record (field previous.byCamera workload.id) with reason := some reason }]) := by
    intro reason
    have now := entered (some reason)
    refine ⟨now.balanced, now.nodes, now.records, ?_, ?_⟩
    · rw [map_append]
      refine nodup_append.mpr ⟨now.waiting.distinct, nodup_singleton _, ?_⟩
      rintro a queued b single rfl
      rw [map_singleton, mem_singleton] at single
      obtain ⟨record, inQueue, rfl⟩ := mem_map.mp queued
      exact unqueued record inQueue single
    · intro record inQueue
      rcases mem_append.mp inQueue with old | single
      · exact now.waiting.listed record old
      · rw [mem_singleton] at single
        rw [single]
        exact ⟨mem_append_right _ (mem_singleton_self _), rfl⟩
  unfold Scheduler.retain
  dsimp only
  split
  · exact waits .new
  · split
    · exact waits .nodeRemoved
    · rename_i node located
      obtain ⟨inNodes, -⟩ := lookup_mem located
      split
      · exact waits .nodeDead
      · rename_i retains
        split
        · exact waits .capacity
        · rename_i room
          have now := entered none
          have living : node.health ≠ .dead := by
            rw [Bool.not_eq_true', Bool.not_eq_false, canRetain, decide_eq_true_eq] at retains
            exact retains
          have member := mem_append_right fleet.records (mem_singleton_self
            (workload.record (field previous.byCamera workload.id)))
          have placed := place_same { fleet with records := fleet.records ++
            [workload.record (field previous.byCamera workload.id)] } node.id workload.id
            workload.weight
          refine ⟨?_, placed.nodes.trans now.nodes, placed.records.trans now.records, ?_⟩
          · exact now.balanced.place inNodes member rfl living (not_lt.mp room)
          · exact now.waiting.place now.balanced node.id _ member unqueued

end

theorem retained_all (previous : PreviousState) (nodes : List Node) (workloads seen : List Workload)
    (so : Fleet × List Record) (weighs : ∀ workload ∈ workloads, 0 < workload.weight)
    (distinct : ((seen ++ workloads).map Workload.id).Nodup)
    (retained : Retained previous nodes seen so) :
    Retained previous nodes (seen ++ workloads) (workloads.foldl (retain previous) so) := by
  induction workloads generalizing seen so with
  | nil =>
    rw [append_nil]
    exact retained
  | cons workload rest ih =>
    have fresh : workload.id ∉ seen.map Workload.id := by
      intro listed
      rw [map_append] at distinct
      have apart := (nodup_append.mp distinct).2.2
      exact apart workload.id listed workload.id mem_cons_self rfl
    have next := retained.retain workload (weighs workload mem_cons_self) fresh
    have later := ih (seen ++ [workload]) _
      (fun other member => weighs other (mem_cons_of_mem _ member))
      (by rwa [append_assoc]) next
    rwa [append_assoc] at later

theorem placeDeferred_balanced {fleet : Fleet} (balanced : Balanced fleet) (record : Record)
    (queue : List Record) (waiting : Waiting fleet (record :: queue)) :
    Balanced (placeDeferred fleet record) ∧ Same (placeDeferred fleet record) fleet ∧
      Waiting (placeDeferred fleet record) queue := by
  obtain ⟨inRecords, homeless⟩ := waiting.listed record mem_cons_self
  obtain ⟨fresh, distinct⟩ := nodup_cons.mp waiting.distinct
  have later : Waiting fleet queue :=
    ⟨distinct, fun other member => waiting.listed other (mem_cons_of_mem _ member)⟩
  unfold placeDeferred
  cases picked : pickTarget fleet.nodes record.weight with
  | none => exact ⟨balanced, ⟨rfl, rfl⟩, later⟩
  | some target =>
    obtain ⟨inNodes, placeable, room⟩ := pickTarget_some _ _ target picked
    refine ⟨?_, place_same _ _ _ _, ?_⟩
    · exact balanced.place inNodes inRecords homeless (living_of_placeable target placeable) room
    · apply later.place balanced target.id record inRecords
      intro other member same
      apply fresh
      rw [← same]
      exact mem_map_of_mem member

theorem deferred_balanced (queue : List Record) (fleet : Fleet) (balanced : Balanced fleet)
    (waiting : Waiting fleet queue) :
    Balanced (queue.foldl placeDeferred fleet) ∧ Same (queue.foldl placeDeferred fleet) fleet := by
  induction queue generalizing fleet with
  | nil => exact ⟨balanced, rfl, rfl⟩
  | cons record rest ih =>
    obtain ⟨next, same, later⟩ := placeDeferred_balanced balanced record rest waiting
    obtain ⟨final, finalSame⟩ := ih _ next later
    exact ⟨final, finalSame.trans same⟩

/-- The draining of one node: the cameras still to look at are on it. -/
structure Draining (nodeId : Text) (fleet : Fleet) (cameras : List Text) : Prop where
  balanced : Balanced fleet
  node : ∃ node ∈ fleet.nodes, node.id = nodeId ∧ node.health = .draining
  distinct : cameras.Nodup
  housed : ∀ cameraId ∈ cameras, ∃ record ∈ fleet.records,
    record.id = cameraId ∧ record.nodeId = some nodeId

theorem Draining.camera {nodeId : Text} {fleet : Fleet} {cameraId : Text} {rest : List Text}
    (draining : Draining nodeId fleet (cameraId :: rest)) (drainBatch : Rat) (moved : Nat) :
    Draining nodeId (drainCamera drainBatch nodeId (fleet, moved) cameraId).1 rest ∧
      Same (drainCamera drainBatch nodeId (fleet, moved) cameraId).1 fleet := by
  obtain ⟨fresh, distinct⟩ := nodup_cons.mp draining.distinct
  have later : Draining nodeId fleet rest :=
    ⟨draining.balanced, draining.node, distinct,
      fun other member => draining.housed other (mem_cons_of_mem _ member)⟩
  have still : Draining nodeId fleet rest ∧ Same fleet fleet := ⟨later, rfl, rfl⟩
  have balanced := draining.balanced
  unfold drainCamera
  split
  · exact still
  obtain ⟨record, inRecords, rfl, home⟩ := draining.housed cameraId mem_cons_self
  rw [lookup_eq_some balanced.recordIds inRecords]
  dsimp only
  cases picked : pickTarget fleet.nodes record.weight with
  | none => exact still
  | some target =>
    obtain ⟨node, inNodes, rfl, drains⟩ := draining.node
    obtain ⟨inTargets, placeable, room⟩ := pickTarget_some _ _ target picked
    have apart : target.id ≠ node.id := by
      intro same
      rw [eq_of_key balanced.nodeIds inTargets inNodes same, isPlaceable, drains] at placeable
      cases placeable
    have released := balanced.release inNodes inRecords home
    have releasedSame := release_same fleet node.id record.id record.weight
    -- the target is untouched by the release, the record has lost its node
    have targetStays : target ∈ (fleet.release node.id record.id record.weight).nodes :=
      (mem_updateAt balanced.nodeIds inNodes _ target).mpr (Or.inr ⟨inTargets, apart⟩)
    have freed : { record with nodeId := none } ∈
        (fleet.release node.id record.id record.weight).records :=
      (mem_updateAt balanced.recordIds inRecords _ _).mpr (Or.inl rfl)
    have placed := released.place targetStays freed rfl (living_of_placeable target placeable) room
    have placedSame := place_same (fleet.release node.id record.id record.weight) target.id
      record.id record.weight
    have finalSame := (giveReason_same _ record.id .draining).trans (placedSame.trans releasedSame)
    refine ⟨⟨placed.giveReason record.id .draining, ?_, distinct, ?_⟩, finalSame⟩
    · have inFixed : node.fixed ∈ fleet.nodes.map Node.fixed := mem_map_of_mem inNodes
      rw [← finalSame.nodes] at inFixed
      obtain ⟨kept, inNew, fixed⟩ := mem_map.mp inFixed
      have health : kept.health = node.health := congrArg (fun fixed => fixed.2.2.2) fixed
      exact ⟨kept, inNew, congrArg Prod.fst fixed, health.trans drains⟩
    · intro other member
      obtain ⟨guest, inGuests, named, there⟩ := later.housed other member
      have other_record : guest.id ≠ record.id := by
        intro same
        rw [← same, named] at fresh
        exact fresh member
      have afterRelease := (mem_updateAt balanced.recordIds inRecords
        (fun record => { record with nodeId := none }) guest).mpr (Or.inr ⟨inGuests, other_record⟩)
      have afterPlace := (mem_updateAt released.recordIds freed
        (fun record => { record with nodeId := some target.id }) guest).mpr
          (Or.inr ⟨afterRelease, other_record⟩)
      refine ⟨guest, ?_, named, there⟩
      exact mem_map.mpr ⟨guest, afterPlace, if_neg other_record⟩

variable (drainBatch : Rat)

theorem Draining.cameras {nodeId : Text} (cameras : List Text) (fleet : Fleet) (moved : Nat)
    (draining : Draining nodeId fleet cameras) :
    Balanced (cameras.foldl (drainCamera drainBatch nodeId) (fleet, moved)).1 ∧
      Same (cameras.foldl (drainCamera drainBatch nodeId) (fleet, moved)).1 fleet := by
  induction cameras generalizing fleet moved with
  | nil => exact ⟨draining.balanced, rfl, rfl⟩
  | cons cameraId rest ih =>
    obtain ⟨next, same⟩ := draining.camera drainBatch moved
    obtain ⟨final, finalSame⟩ := ih _ (drainCamera drainBatch nodeId (fleet, moved) cameraId).2 next
    exact ⟨final, finalSame.trans same⟩

theorem drainNode_balanced (fleet : Fleet) (nodeId : Text) (balanced : Balanced fleet) :
    Balanced (drainNode drainBatch fleet nodeId) ∧ Same (drainNode drainBatch fleet nodeId) fleet := by
  unfold drainNode
  split
  · exact ⟨balanced, rfl, rfl⟩
  · rename_i node located
    obtain ⟨inNodes, rfl⟩ := lookup_mem located
    split
    · rename_i drains
      exact Draining.cameras drainBatch node.cameras fleet 0
        ⟨balanced, ⟨node, inNodes, rfl, drains⟩, balanced.distinctCameras node inNodes,
          fun cameraId member => (balanced.cameras node inNodes cameraId).mp member⟩
    · exact ⟨balanced, rfl, rfl⟩

theorem drained_balanced (nodeIds : List Text) (fleet : Fleet) (balanced : Balanced fleet) :
    Balanced (nodeIds.foldl (drainNode drainBatch) fleet) ∧
      Same (nodeIds.foldl (drainNode drainBatch) fleet) fleet := by
  induction nodeIds generalizing fleet with
  | nil => exact ⟨balanced, rfl, rfl⟩
  | cons nodeId rest ih =>
    obtain ⟨next, same⟩ := drainNode_balanced drainBatch fleet nodeId balanced
    obtain ⟨final, finalSame⟩ := ih _ next
    exact ⟨final, finalSame.trans same⟩

theorem normalizeWorkloads_entries (input : List RawWorkload) (done : List (Text × Rat))
    (distinct : (done.map Prod.fst).Nodup) (weighs : ∀ entry ∈ done, 0 < entry.2) :
    let entries := input.foldl (fun byId raw =>
      if trim raw.id = [] then byId else setField byId (trim raw.id, weightOf raw.weight)) done
    (entries.map Prod.fst).Nodup ∧ (∀ entry ∈ entries, 0 < entry.2) ∧
      ∀ id, id ∈ entries.map Prod.fst ↔
        id ∈ done.map Prod.fst ∨ ∃ raw ∈ input, trim raw.id = id ∧ id ≠ [] := by
  induction input generalizing done with
  | nil =>
    refine ⟨distinct, weighs, fun id => ⟨Or.inl, ?_⟩⟩
    rintro (listed | ⟨raw, impossible, -⟩)
    · exact listed
    · cases impossible
  | cons raw rest ih =>
    rw [foldl_cons]
    by_cases empty : trim raw.id = []
    · rw [if_pos empty]
      obtain ⟨nodup, positive, ids⟩ := ih done distinct weighs
      refine ⟨nodup, positive, fun id => (ids id).trans (or_congr_right ?_)⟩
      constructor
      · rintro ⟨other, member, named⟩
        exact ⟨other, mem_cons_of_mem _ member, named⟩
      · rintro ⟨other, member, rfl, solid⟩
        rcases mem_cons.mp member with rfl | later
        · exact absurd empty solid
        · exact ⟨other, later, rfl, solid⟩
    · rw [if_neg empty]
      have weight : 0 < weightOf raw.weight := by
        unfold weightOf
        split
        · exact one_pos
        · split
          · assumption
          · exact one_pos
      obtain ⟨nodup, positive, ids⟩ := ih (setField done (trim raw.id, weightOf raw.weight))
        (setField_nodup _ _ distinct) (by
          intro entry member
          rcases (mem_setField _ _ _).mp member with rfl | ⟨old, -⟩
          · exact weight
          · exact weighs entry old)
      refine ⟨nodup, positive, fun id => (ids id).trans ?_⟩
      have keys : id ∈ (setField done (trim raw.id, weightOf raw.weight)).map Prod.fst ↔
          id ∈ done.map Prod.fst ∨ id = trim raw.id := by
        rw [setField_keys]
        split
        · rename_i listed
          exact ⟨Or.inl, fun either => either.elim (fun old => old) (fun same => same ▸ listed)⟩
        · rw [mem_append, mem_singleton]
      rw [keys, or_assoc]
      apply or_congr_right
      constructor
      · rintro (rfl | ⟨other, member, named⟩)
        · exact ⟨raw, mem_cons_self, rfl, empty⟩
        · exact ⟨other, mem_cons_of_mem _ member, named⟩
      · rintro ⟨other, member, rfl, solid⟩
        rcases mem_cons.mp member with rfl | later
        · exact Or.inl rfl
        · exact Or.inr ⟨other, later, rfl, solid⟩

theorem normalizeWorkloads_ids (input : List RawWorkload) :
    ((normalizeWorkloads input).map Workload.id).Nodup ∧
      (∀ workload ∈ normalizeWorkloads input, 0 < workload.weight) ∧
      ∀ id, id ∈ (normalizeWorkloads input).map Workload.id ↔
        ∃ raw ∈ input, trim raw.id = id ∧ id ≠ [] := by
  obtain ⟨nodup, positive, ids⟩ := normalizeWorkloads_entries input [] nodup_nil nofun
  have same : (normalizeWorkloads input).map Workload.id = List.map Prod.fst (input.foldl
      (fun byId raw => if trim raw.id = [] then byId
        else setField byId (trim raw.id, weightOf raw.weight)) []) := by
    rw [normalizeWorkloads, map_map]
    rfl
  refine ⟨?_, ?_, ?_⟩
  · rw [same]
    exact nodup
  · intro workload member
    obtain ⟨entry, inEntries, rfl⟩ := mem_map.mp member
    exact positive entry inEntries
  · intro id
    rw [same, ids id]
    constructor
    · rintro (impossible | requested)
      · cases impossible
      · exact requested
    · exact Or.inr

/-- A node of the plan comes from the registry, empty. -/
structure Registered (config : Config) (states : List (Text × NodeState)) (nowMs : Rat)
    (registry : List RawNode) (node : Node) : Prop where
  named : node.id ≠ []
  source : ∃ raw ∈ registry, node.fixed = (trim raw.id, normalizeCapacity raw.capacity,
    (normalizeCapacity raw.capacity).getD config.defaultNodeCapacity,
    nodeHealth (field states (trim raw.id)) nowMs config)

theorem buildNodes_registered (config : Config) (states : List (Text × NodeState)) (nowMs : Rat)
    (registry : List RawNode) : ((buildNodes config states nowMs registry).map Node.id).Nodup ∧
      ∀ node ∈ buildNodes config states nowMs registry,
        Registered config states nowMs registry node ∧ node.load = 0 ∧ node.cameras = [] := by
  have sources : ∀ compute ∈ (normalizeComputeNodes registry).insertionSort
      (fun a b => unitsLe a.id b.id = true), ∃ raw ∈ registry,
        compute = ⟨trim raw.id, normalizeCapacity raw.capacity⟩ := by
    intro compute member
    rw [(perm_insertionSort _ _).mem_iff] at member
    obtain ⟨raw, inRegistry, rfl⟩ := mem_map.mp member
    exact ⟨raw, inRegistry, rfl⟩
  unfold buildNodes
  generalize (normalizeComputeNodes registry).insertionSort
    (fun a b => unitsLe a.id b.id = true) = sorted at sources
  have all : ∀ (rest : List ComputeNode) (done : List Node), (∀ compute ∈ rest, ∃ raw ∈ registry,
        compute = ⟨trim raw.id, normalizeCapacity raw.capacity⟩) →
      (done.map Node.id).Nodup → (∀ node ∈ done, Registered config states nowMs registry node ∧
        node.load = 0 ∧ node.cameras = []) →
      let nodes := rest.foldl (fun nodes raw =>
        if raw.id = [] ∨ raw.id ∈ nodes.map Node.id then nodes
        else nodes ++ [{
          id := raw.id
          declaredCapacity := raw.capacity
          capacity := raw.capacity.getD config.defaultNodeCapacity
          health := nodeHealth (field states raw.id) nowMs config
          load := 0
          cameras := [] }]) done
      (nodes.map Node.id).Nodup ∧ ∀ node ∈ nodes, Registered config states nowMs registry node ∧
        node.load = 0 ∧ node.cameras = [] := by
    intro rest
    induction rest with
    | nil => exact fun done _ distinct registered => ⟨distinct, registered⟩
    | cons compute rest ih =>
      intro done from_registry distinct registered
      have others : ∀ other ∈ rest, ∃ raw ∈ registry,
          other = ⟨trim raw.id, normalizeCapacity raw.capacity⟩ := fun other member =>
        from_registry other (mem_cons_of_mem _ member)
      rw [foldl_cons]
      by_cases skipped : compute.id = [] ∨ compute.id ∈ done.map Node.id
      · rw [if_pos skipped]
        exact ih done others distinct registered
      · rw [if_neg skipped]
        obtain ⟨solid, fresh⟩ := not_or.mp skipped
        obtain ⟨raw, inRegistry, rfl⟩ := from_registry compute mem_cons_self
        apply ih _ others
        · rw [map_append]
          refine nodup_append.mpr ⟨distinct, nodup_singleton _, ?_⟩
          rintro id listed other single rfl
          rw [map_singleton, mem_singleton] at single
          rw [single] at listed
          exact fresh listed
        · intro node member
          rcases mem_append.mp member with old | single
          · exact registered node old
          · rw [mem_singleton.mp single]
            exact ⟨⟨solid, raw, inRegistry, rfl⟩, rfl, rfl⟩
  exact all sorted [] sources nodup_nil nofun

theorem capacity_nonneg (input : RawConfig) (capacity : RawCapacity) :
    0 ≤ (normalizeCapacity capacity).getD (resolveSchedulerConfig input).defaultNodeCapacity := by
  have fallback : 0 ≤ (resolveSchedulerConfig input).defaultNodeCapacity := by
    show 0 ≤ (readNumber input.defaultNodeCapacity 0).getD 16
    unfold readNumber
    split
    · exact Nat.ofNat_nonneg 16
    · split
      · exact Nat.ofNat_nonneg 16
      · rename_i large
        exact not_lt.mp large
  cases declared : normalizeCapacity capacity with
  | none => exact fallback
  | some n =>
    have written : 0 ≤ n := by
      unfold normalizeCapacity at declared
      split at declared
      · split at declared
        · cases declared
          exact double_nonneg ‹_›
        · cases declared
      · split at declared
        · cases declared
          exact double_nonneg ‹_›
        · cases declared
      all_goals cases declared
    exact written

/-- Before the first phase nothing is assigned and the books balance. -/
theorem empty_balanced (input : RawConfig) (states : List (Text × NodeState)) (nowMs : Rat)
    (registry : List RawNode) :
    Balanced ⟨buildNodes (resolveSchedulerConfig input) states nowMs registry, []⟩ := by
  obtain ⟨distinct, registered⟩ :=
    buildNodes_registered (resolveSchedulerConfig input) states nowMs registry
  refine ⟨distinct, nodup_nil, nofun, nofun, ?_, ?_, ?_, ?_, ?_⟩
  · intro node member
    rw [(registered node member).2.1]
    exact double_zero
  · intro _ node member
    exact (registered node member).2.1
  · intro node member
    obtain ⟨⟨-, raw, -, fixed⟩, empty, -⟩ := registered node member
    have capacity : node.capacity = (normalizeCapacity raw.capacity).getD
        (resolveSchedulerConfig input).defaultNodeCapacity :=
      congrArg (fun fixed => fixed.2.2.1) fixed
    rw [empty, capacity]
    exact capacity_nonneg input raw.capacity
  · intro node member
    rw [(registered node member).2.2]
    exact nodup_nil
  · intro node member cameraId
    rw [(registered node member).2.2]
    exact ⟨nofun, nofun⟩

theorem orderWorkloads_perm (list : List Workload) : (orderWorkloads list).Perm list :=
  perm_insertionSort _ _

theorem assignNodes_balanced (input : RawConfig) (states : List (Text × NodeState)) (nowMs : Rat)
    (registry : List RawNode) (previous : PreviousState) (requested : List RawWorkload) :
    let config := resolveSchedulerConfig input
    let nodes := buildNodes config states nowMs registry
    let workloads := orderWorkloads (normalizeWorkloads requested)
    let fleet := assignNodes config nodes previous workloads
    Balanced fleet ∧ fleet.nodes.map Node.fixed = nodes.map Node.fixed ∧
      fleet.records.map Record.fixed = workloads.map (Workload.fixed previous) := by
  obtain ⟨distinct, weighs, -⟩ := normalizeWorkloads_ids requested
  have ordered := orderWorkloads_perm (normalizeWorkloads requested)
  intro config nodes workloads fleet
  have retained := retained_all previous nodes workloads [] (⟨nodes, []⟩, [])
    (fun workload member => weighs workload (ordered.mem_iff.mp member))
    ((ordered.map Workload.id).nodup_iff.mpr distinct)
    ⟨empty_balanced input states nowMs registry, rfl, rfl, ⟨nodup_nil, nofun⟩⟩
  obtain ⟨placed, placedSame⟩ := deferred_balanced _ _ retained.balanced retained.waiting
  obtain ⟨drained, drainedSame⟩ := drained_balanced config.drainBatch _ _ placed
  have same := drainedSame.trans placedSame
  exact ⟨drained, same.nodes.trans retained.nodes, same.records.trans retained.records⟩

end DracVms.Scheduler
