import DracVms.Scheduler.Draining
import DracVms.Scheduler.Revocations

namespace DracVms.Scheduler

open List

open Json (Text field field_eq_some)
open KeyedList
open Binary64 (double double_zero)

/-- The same request with the draining frozen. -/
def undrained (options : Options) : Options :=
  { options with config := { options.config with drainBatch := some 0 } }

theorem drainNode_frozen (fleet : Fleet) (nodeId : Text) : drainNode 0 fleet nodeId = fleet := by
  have still : ∀ (cameras : List Text) (moved : Nat),
      cameras.foldl (drainCamera 0 nodeId) (fleet, moved) = (fleet, moved) := by
    intro cameras
    induction cameras with
    | nil => exact fun moved => rfl
    | cons cameraId rest ih =>
      intro moved
      have frozen : drainCamera 0 nodeId (fleet, moved) cameraId = (fleet, moved) :=
        if_pos (Nat.cast_nonneg moved)
      rw [foldl_cons, frozen]
      exact ih moved
  unfold drainNode
  split
  · rfl
  · split
    · rw [still]
    · rfl

variable (options : Options) (nowMs : Rat)

theorem placedFleet_undrained :
    placedFleet (undrained options) nowMs = placedFleet options nowMs := rfl

theorem planFleet_undrained : planFleet (undrained options) nowMs = placedFleet options nowMs := by
  have batch : (resolveSchedulerConfig (undrained options).config).drainBatch = 0 := by
    show (readNumber (some 0) 0).getD defaultSchedulerConfig.drainBatch = 0
    decide +kernel
  have frozen : ∀ (nodeIds : List Text) (fleet : Fleet),
      nodeIds.foldl (drainNode 0) fleet = fleet := by
    intro nodeIds
    induction nodeIds with
    | nil => exact fun fleet => rfl
    | cons nodeId rest ih =>
      intro fleet
      rw [foldl_cons, drainNode_frozen]
      exact ih fleet
  rw [planFleet_phases, batch, frozen, placedFleet_undrained]

theorem planned_timely (plan : Plan) (planned : planAssignments options = .ok plan) :
    ¬Untimely options := by
  intro untimely
  unfold planAssignments at planned
  dsimp only at planned
  split at planned
  · cases planned
  · rename_i nowMs now
    rcases untimely nowMs now with missing | missing
    · rw [missing] at planned
      split at planned
      · rename_i impossible
        cases impossible
      · cases planned
    · rw [missing] at planned
      cases planned

/-- Where the request can be planned, so it can without draining. -/
theorem undrained_planned (plan : Plan) (planned : planAssignments options = .ok plan) (nowMs : Rat)
    (now : options.now = some nowMs) : ∃ steady, planAssignments (undrained options) = .ok steady ∧
      Made (undrained options) nowMs steady (placedFleet options nowMs) := by
  rcases planAssignments_made (undrained options) with ⟨-, steady, -, -, same, -⟩ | ⟨-, untimely⟩
  · obtain ⟨otherMs, -, now', made, -⟩ := planned_made (undrained options) steady same
    have equal : some nowMs = some otherMs := now.symm.trans now'
    cases equal
    rw [planFleet_undrained] at made
    exact ⟨steady, same, made⟩
  · exact absurd untimely (planned_timely options plan planned)

def AssignedTo (plan : Plan) (cameraId nodeId : Text) : Prop :=
  ∃ assignment ∈ plan.assignments, assignment.cameraId = cameraId ∧ assignment.nodeId = nodeId

/-- What a plan owes the cameras, against the plan that drains nothing. -/
structure Sparing (options : Options) (plan steady : Plan) : Prop where
  orphans : ∀ orphan ∈ plan.unassigned, NoRoom plan.nodes orphan.weight
  assigned : ∀ cameraId, cameraId ∈ plan.unassigned.map Unassigned.cameraId ↔
    cameraId ∈ steady.unassigned.map Unassigned.cameraId
  batch : ∀ nodeId, (plan.revoked.filter fun revocation =>
      revocation.nodeId = nodeId ∧ revocation.reason = .draining).length ≤
    ⌈(resolveSchedulerConfig options.config).drainBatch⌉₊
  leavers : ∀ node ∈ plan.nodes, node.health = .draining →
    ∀ revocation ∈ plan.revoked, revocation.nodeId = node.id → revocation.reason ≠ .draining →
      ∃ workload ∈ normalizeWorkloads options.workloads, workload.id = revocation.cameraId ∧
        ∃ host ∈ steady.nodes, host.id = node.id ∧
          host.capacity < double (host.load + workload.weight)
  failover : ∀ cameraId, (∀ node ∈ plan.nodes,
      (normalizePrevious options.previous).owner cameraId = some node.id →
      node.health ≠ .draining) →
    ∀ nodeId, AssignedTo plan cameraId nodeId ↔ AssignedTo steady cameraId nodeId

section Made

variable {options : Options} {nowMs : Rat} {plan : Plan} {fleet : Fleet}

section

variable (made : Made options nowMs plan fleet)

include made

theorem Made.nodes_fixed :
    plan.nodes.map Node.fixed = (registryNodes options nowMs).map Node.fixed := by
  rw [made.nodes, map_map]
  exact made.nodesFixed

theorem Made.node_of (node : Node) (member : node ∈ plan.nodes) :
    ∃ host ∈ fleet.nodes, host.fixed = node.fixed ∧ host.load = node.load := by
  rw [made.nodes] at member
  obtain ⟨host, inHosts, rfl⟩ := mem_map.mp member
  exact ⟨host, inHosts, rfl, rfl⟩

theorem Made.node_in (host : Node) (member : host ∈ fleet.nodes) :
    ∃ node ∈ plan.nodes, node.fixed = host.fixed ∧ node.load = host.load := by
  rw [made.nodes]
  exact ⟨_, mem_map_of_mem member, rfl, rfl⟩

theorem Made.assignedTo (cameraId nodeId : Text) : AssignedTo plan cameraId nodeId ↔
      ∃ record ∈ fleet.records, record.id = cameraId ∧ record.nodeId = some nodeId := by
  constructor
  · rintro ⟨assignment, member, rfl, rfl⟩
    obtain ⟨record, inRecords, named, home, -⟩ := made.record_of assignment member
    exact ⟨record, (byId_perm _).mem_iff.mp inRecords, named, home⟩
  · rintro ⟨record, inRecords, rfl, home⟩
    obtain ⟨assignment, member, named, host, -⟩ :=
      made.assigned record ((byId_perm _).mem_iff.mpr inRecords) nodeId home
    exact ⟨assignment, member, named, host⟩

theorem Made.unassigned_iff (cameraId : Text) : cameraId ∈ plan.unassigned.map Unassigned.cameraId ↔
      ∃ record ∈ fleet.records, record.id = cameraId ∧ record.nodeId = none := by
  rw [made.unassigned]
  constructor
  · intro listed
    obtain ⟨orphan, member, rfl⟩ := mem_map.mp listed
    obtain ⟨record, inRecords, row⟩ := mem_filterMap.mp member
    unfold unassignedOf at row
    split at row
    · cases row
    · rename_i homeless
      cases row
      exact ⟨record, (byId_perm _).mem_iff.mp inRecords, rfl, homeless⟩
  · rintro ⟨record, inRecords, rfl, homeless⟩
    have row : unassignedOf record = some ⟨record.id, record.weight,
        (if record.reason = some .new then .noCapacity else record.reason.getD .noCapacity),
        record.previousNodeId⟩ := by
      rw [unassignedOf, homeless]
    refine mem_map.mpr ⟨_, mem_filterMap.mpr ⟨record, ?_, row⟩, rfl⟩
    exact (byId_perm _).mem_iff.mpr inRecords

theorem Made.revocation_iff (revocation : Revocation) :
    revocation ∈ plan.revoked ↔ ∃ record ∈ fleet.records, ∃ source,
      record.previousNodeId = some source ∧ record.nodeId ≠ some source ∧
      revocation = ⟨record.id, source, record.previousToken, record.reason.getD .capacity⟩ := by
  rw [made.revoked, mem_filterMap]
  constructor
  · rintro ⟨record, inRecords, row⟩
    exact ⟨record, (byId_perm _).mem_iff.mp inRecords, (revocationOf_some record revocation).mp row⟩
  · rintro ⟨record, inRecords, row⟩
    exact ⟨record, (byId_perm _).mem_iff.mpr inRecords,
      (revocationOf_some record revocation).mpr row⟩

end

end Made

theorem undrained_record (record before : Record)
    (member : record ∈ (planFleet options nowMs).records)
    (inPlaced : before ∈ (placedFleet options nowMs).records) (sameId : record.id = before.id) :
    record = before ∨ ∃ nodeId, before.nodeId = some nodeId ∧
      (∃ node ∈ (placedFleet options nowMs).nodes, node.id = nodeId ∧ node.health = .draining) ∧
      ∃ target ∈ (placedFleet options nowMs).nodes, isPlaceable target = true ∧
        record = before.drained target.id := by
  obtain ⟨placed, -⟩ := placedFleet_balanced options nowMs
  rcases planFleet_cases options nowMs record member with
    stays | ⟨other, inOther, nodeId, home, drains, target, inNodes, accepts, rfl⟩
  · exact Or.inl (eq_of_key placed.recordIds stays inPlaced sameId)
  · have one := eq_of_key placed.recordIds inOther inPlaced sameId
    rw [one] at home ⊢
    exact Or.inr ⟨nodeId, home, drains, target, inNodes, accepts, rfl⟩

theorem placed_undrained (record : Record) (member : record ∈ (placedFleet options nowMs).records) :
    record.reason ≠ some .draining := by
  have stayed := retainedFleet_stayed options nowMs
  rcases placedFleet_cases options nowMs record member with
    ⟨inRetained, -⟩ | ⟨before, inRetained, -, target, -, -, -, rfl⟩
  · exact stayed.reasons record inRetained
  · exact stayed.reasons before inRetained

theorem record_owner (record : Record) (member : record ∈ (retainedFleet options nowMs).1.records) :
    (normalizePrevious options.previous).owner record.id = record.previousNodeId ∧
      ∃ workload ∈ plannedWorkloads options, workload.id = record.id ∧
        workload.weight = record.weight := by
  have retained := retainedFleet_retained options nowMs
  have listed : record.fixed ∈ (retainedFleet options nowMs).1.records.map Record.fixed :=
    mem_map_of_mem member
  rw [retained.records] at listed
  obtain ⟨workload, inWorkloads, fixed⟩ := mem_map.mp listed
  have sameId : workload.id = record.id := congrArg Prod.fst fixed
  refine ⟨?_, workload, inWorkloads, sameId, congrArg (fun fixed => fixed.2.1) fixed⟩
  rw [← sameId]
  exact congrArg (fun fixed => fixed.2.2.1) fixed

theorem deferred_elsewhere (queue : List Record) (fleet : Fleet) (balanced : Balanced fleet)
    (waiting : Waiting fleet queue) (node : Node) (member : node ∈ fleet.nodes)
    (refuses : isPlaceable node = false) : node ∈ (queue.foldl placeDeferred fleet).nodes := by
  induction queue generalizing fleet with
  | nil => exact member
  | cons record rest ih =>
    obtain ⟨next, -, later⟩ := placeDeferred_balanced balanced record rest waiting
    apply ih _ next later
    unfold placeDeferred
    cases picked : pickTarget fleet.nodes record.weight with
    | none => exact member
    | some target =>
      obtain ⟨inNodes, accepts, -⟩ := pickTarget_some _ _ target picked
      refine (mem_updateAt balanced.nodeIds inNodes _ node).mpr (Or.inr ⟨member, ?_⟩)
      intro same
      rw [eq_of_key balanced.nodeIds member inNodes same, accepts] at refuses
      cases refuses

theorem leaver_exceeds (record : Record) (member : record ∈ (retainedFleet options nowMs).1.records)
    (node : Node) (inNodes : node ∈ (retainedFleet options nowMs).1.nodes)
    (retains : canRetain node = true) (owned : record.previousNodeId = some node.id)
    (leaves : record.nodeId ≠ some node.id) :
    record.nodeId = none ∧ node.capacity < double (node.load + record.weight) := by
  have retained := retainedFleet_retained options nowMs
  have stayed := retainedFleet_stayed options nowMs
  obtain ⟨owner, workload, inWorkloads, sameId, weight⟩ := record_owner options nowMs record member
  rw [owned, ← sameId] at owner
  obtain ⟨built, inBuilt, builtId, capacity, health⟩ :=
    fixed_counterpart retained.nodes node inNodes
  have homeless : record.nodeId = none := by
    cases home : record.nodeId with
    | none => rfl
    | some nodeId =>
      obtain ⟨host, -, -, -, kept, stays, named⟩ := (stayed.homes record member nodeId).mp home
      have owner' := stay_owned kept _ _ _ _ _ stays
      rw [named, ← sameId, owner] at owner'
      rw [home, ← owner'] at leaves
      exact absurd rfl leaves
  refine ⟨homeless, ?_⟩
  have unheld : workload ∉ stay (normalizePrevious options.previous) node.id node.capacity 0
      (plannedWorkloads options) := by
    intro stays
    rw [← capacity] at stays
    exact leaves ((stayed.homes record member node.id).mpr ⟨built, inBuilt, builtId,
      (canRetain_of_health health).trans retains, workload, stays, sameId⟩)
  have exceeded := stay_full workload _ _ _ 0 _ double_zero (plannedWorkloads_ids options).2
    inWorkloads owner unheld
  rw [← stayed.loads node inNodes retains, weight] at exceeded
  exact exceeded

section Sparing

variable {options : Options} {nowMs : Rat} {plan steady : Plan}

/-- The record that an earlier phase has of the same camera. -/
theorem earlier_record (record : Record) (member : record ∈ (planFleet options nowMs).records) :
    ∃ before ∈ (placedFleet options nowMs).records, record.id = before.id := by
  obtain ⟨-, same⟩ := planFleet_balanced options nowMs
  obtain ⟨before, inPlaced, fixed⟩ := same_record same record member
  exact ⟨before, inPlaced, (congrArg Prod.fst fixed).symm⟩

theorem later_record (before : Record) (member : before ∈ (placedFleet options nowMs).records) :
    ∃ record ∈ (planFleet options nowMs).records, record.id = before.id := by
  obtain ⟨-, same⟩ := planFleet_balanced options nowMs
  have listed : before.fixed ∈ (placedFleet options nowMs).records.map Record.fixed :=
    mem_map_of_mem member
  rw [← same.records] at listed
  obtain ⟨record, inRecords, fixed⟩ := mem_map.mp listed
  exact ⟨record, inRecords, congrArg Prod.fst fixed⟩

variable (made : Made options nowMs plan (planFleet options nowMs))

include made

theorem orphans_full (orphan : Unassigned) (member : orphan ∈ plan.unassigned) :
    NoRoom plan.nodes orphan.weight := by
  intro node inNodes accepts
  rw [made.unassigned] at member
  obtain ⟨record, inRecords, row⟩ := mem_filterMap.mp member
  have inFleet := (byId_perm _).mem_iff.mp inRecords
  obtain ⟨host, inHosts, fixed, load⟩ := made.node_of node inNodes
  unfold unassignedOf at row
  split at row
  · cases row
  · rename_i homeless
    cases row
    have full := homeless_noRoom options nowMs record inFleet homeless host inHosts
      ((isPlaceable_of_fixed fixed).trans accepts)
    have capacity : host.capacity = node.capacity := congrArg (fun fixed => fixed.2.2.1) fixed
    rw [← load, ← capacity]
    exact full

theorem revoked_distinct : (plan.revoked.map Revocation.cameraId).Nodup := by
  rw [made.revoked]
  refine made.recordIds.sublist ?_
  generalize byId (planFleet options nowMs).records = records
  induction records with
  | nil => exact List.Sublist.slnil
  | cons record rest ih =>
    cases row : revocationOf record with
    | none =>
      rw [filterMap_cons_none row]
      exact ih.cons record.id
    | some revocation =>
      obtain ⟨source, -, -, rfl⟩ := (revocationOf_some record revocation).mp row
      rw [filterMap_cons_some row]
      exact ih.cons_cons record.id

theorem drained_at_most (nodeId : Text) : (plan.revoked.filter fun revocation =>
      revocation.nodeId = nodeId ∧ revocation.reason = .draining).length ≤
    ⌈(resolveSchedulerConfig options.config).drainBatch⌉₊ := by
  obtain ⟨placed, -⟩ := placedFleet_balanced options nowMs
  obtain ⟨balanced, -⟩ := planFleet_balanced options nowMs
  obtain ⟨-, -, gone⟩ := drained_fate (resolveSchedulerConfig options.config).drainBatch _ _ placed
    placed.nodeIds
  obtain ⟨left', bound, fates⟩ := gone nodeId
  refine le_trans ?_ bound
  have cameras : ((plan.revoked.filter fun revocation =>
      revocation.nodeId = nodeId ∧ revocation.reason = .draining).map
        Revocation.cameraId).Nodup := (revoked_distinct made).sublist (filter_sublist.map _)
  rw [← length_map (f := Revocation.cameraId)]
  apply (subperm_of_subset cameras _).length_le
  intro cameraId listed
  obtain ⟨revocation, chosen, rfl⟩ := mem_map.mp listed
  obtain ⟨member, criteria⟩ := mem_filter.mp chosen
  rw [decide_eq_true_eq] at criteria
  obtain ⟨record, inRecords, source, owned, away, rfl⟩ := (made.revocation_iff revocation).mp member
  obtain ⟨rfl, reason⟩ := criteria
  have drainedReason : record.reason = some .draining := by
    cases why : record.reason with
    | none =>
      rw [why] at reason
      cases reason
    | some other =>
      rw [why] at reason
      exact congrArg some reason
  obtain ⟨before, inPlaced, sameId⟩ := earlier_record record inRecords
  rcases undrained_record options nowMs record before inRecords inPlaced sameId with
    rfl | ⟨host, home, drains, target, inTargets, accepts, rfl⟩
  · exact absurd drainedReason (placed_undrained options nowMs record inPlaced)
  · obtain ⟨-, owner⟩ := draining_owner options nowMs before inPlaced host home drains
    have here : some host = some source := owner.symm.trans owned
    cases here
    rcases fates before inPlaced home with stays | leaves
    · have one := eq_of_key balanced.recordIds stays inRecords rfl
      rw [one] at home
      exact absurd home away
    · exact leaves

/-- A record that no draining node owned is the one that it was before the draining. -/
theorem undisturbed (record before : Record) (member : record ∈ (planFleet options nowMs).records)
    (inPlaced : before ∈ (placedFleet options nowMs).records) (sameId : record.id = before.id)
    (free : ∀ node ∈ plan.nodes,
      (normalizePrevious options.previous).owner record.id = some node.id →
      node.health ≠ .draining) : record = before := by
  have retained := retainedFleet_retained options nowMs
  obtain ⟨-, same⟩ := placedFleet_balanced options nowMs
  rcases undrained_record options nowMs record before member inPlaced sameId with
    one | ⟨host, home, drains, -⟩
  · exact one
  · exfalso
    obtain ⟨inRetained, owner⟩ := draining_owner options nowMs before inPlaced host home drains
    obtain ⟨node, inMiddle, rfl, drains⟩ := drains
    obtain ⟨shown, inShown, shownId, -, shownHealth⟩ :=
      fixed_counterpart (same.nodes.trans (retained.nodes.trans made.nodes_fixed.symm)) node inMiddle
    apply free shown inShown
    · rw [shownId, ← owner, sameId]
      exact (record_owner options nowMs before inRetained).1
    · exact shownHealth.trans drains

variable (calm : Made (undrained options) nowMs steady (placedFleet options nowMs))

include calm

theorem unassigned_undrained (cameraId : Text) :
    cameraId ∈ plan.unassigned.map Unassigned.cameraId ↔
      cameraId ∈ steady.unassigned.map Unassigned.cameraId := by
  rw [made.unassigned_iff, calm.unassigned_iff]
  constructor
  · rintro ⟨record, member, rfl, homeless⟩
    obtain ⟨before, inPlaced, sameId⟩ := earlier_record record member
    rcases undrained_record options nowMs record before member inPlaced sameId with
      rfl | ⟨-, -, -, target, -, -, rfl⟩
    · exact ⟨record, inPlaced, rfl, homeless⟩
    · cases homeless
  · rintro ⟨before, inPlaced, rfl, homeless⟩
    obtain ⟨record, member, sameId⟩ := later_record before inPlaced
    rcases undrained_record options nowMs record before member inPlaced sameId with
      rfl | ⟨nodeId, home, -⟩
    · exact ⟨record, member, rfl, homeless⟩
    · rw [homeless] at home
      cases home

theorem assigned_undrained (cameraId : Text) (free : ∀ node ∈ plan.nodes,
      (normalizePrevious options.previous).owner cameraId = some node.id →
      node.health ≠ .draining) (nodeId : Text) :
    AssignedTo plan cameraId nodeId ↔ AssignedTo steady cameraId nodeId := by
  rw [made.assignedTo, calm.assignedTo]
  constructor
  · rintro ⟨record, member, rfl, home⟩
    obtain ⟨before, inPlaced, sameId⟩ := earlier_record record member
    have one := undisturbed made record before member inPlaced sameId free
    rw [one] at home ⊢
    exact ⟨before, inPlaced, rfl, home⟩
  · rintro ⟨before, inPlaced, rfl, home⟩
    obtain ⟨record, member, sameId⟩ := later_record before inPlaced
    rw [← sameId] at free
    have one := undisturbed made record before member inPlaced sameId free
    rw [← one] at home ⊢
    exact ⟨record, member, rfl, home⟩

/-- A draining node is the same before the draining, and what left it then did not fit. -/
theorem leavers_exceed (node : Node) (inNodes : node ∈ plan.nodes) (drains : node.health = .draining)
    (revocation : Revocation) (member : revocation ∈ plan.revoked)
    (named : revocation.nodeId = node.id) (reason : revocation.reason ≠ .draining) :
    ∃ workload ∈ normalizeWorkloads options.workloads, workload.id = revocation.cameraId ∧
      ∃ host ∈ steady.nodes, host.id = node.id ∧
        host.capacity < double (host.load + workload.weight) := by
  have retained := retainedFleet_retained options nowMs
  obtain ⟨record, inRecords, source, owned, away, rfl⟩ := (made.revocation_iff revocation).mp member
  obtain ⟨before, inPlaced, sameId⟩ := earlier_record record inRecords
  have one : record = before := by
    rcases undrained_record options nowMs record before inRecords inPlaced sameId with
      same | ⟨host, home, -, target, -, -, rfl⟩
    · exact same
    · exact absurd rfl reason
  rw [← one] at inPlaced
  have sourceId : source = node.id := named
  rw [sourceId] at owned away
  -- the draining node in phase 1
  obtain ⟨first, inFirst, firstNamed, -, firstHealth⟩ :=
    fixed_counterpart (made.nodes_fixed.trans retained.nodes.symm) node inNodes
  have firstDrains : first.health = .draining := firstHealth.trans drains
  have retains : canRetain first = true := by simp [canRetain, firstDrains]
  have refuses : isPlaceable first = false := by simp [isPlaceable, firstDrains]
  have still : first ∈ (placedFleet options nowMs).nodes :=
    deferred_elsewhere _ _ retained.balanced retained.waiting first inFirst refuses
  rw [← firstNamed] at owned away
  obtain ⟨calmNode, inCalm, calmFixed, calmLoad⟩ := calm.node_in first still
  have calmCapacity : calmNode.capacity = first.capacity :=
    congrArg (fun fixed => fixed.2.2.1) calmFixed
  have exceeded : ∃ old ∈ (retainedFleet options nowMs).1.records, old.id = record.id ∧
      first.capacity < double (first.load + old.weight) := by
    rcases placedFleet_cases options nowMs record inPlaced with
      ⟨inRetained, -⟩ | ⟨old, inRetained, homeless, target, -, -, -, rfl⟩
    · exact ⟨record, inRetained, rfl,
        (leaver_exceeds options nowMs record inRetained first inFirst retains owned away).2⟩
    · refine ⟨old, inRetained, rfl,
        (leaver_exceeds options nowMs old inRetained first inFirst retains owned ?_).2⟩
      simp [homeless]
  obtain ⟨old, inRetained, oldId, full⟩ := exceeded
  obtain ⟨-, workload, inWorkloads, workloadId, weight⟩ := record_owner options nowMs old inRetained
  refine ⟨workload, (orderWorkloads_perm _).mem_iff.mp inWorkloads, workloadId.trans oldId,
    calmNode, inCalm, (congrArg Prod.fst calmFixed).trans firstNamed, ?_⟩
  rw [calmCapacity, calmLoad, weight]
  exact full

end Sparing

/-- No camera is left out that fits, draining leaves none out, and only a batch leaves each draining
node for it; the cameras that no draining node owned are placed as if nothing were drained. -/
theorem plans_are_sparing (options : Options) (plan : Plan)
    (planned : planAssignments options = .ok plan) :
    ∃ steady, planAssignments (undrained options) = .ok steady ∧ Sparing options plan steady := by
  obtain ⟨nowMs, -, now, made, -⟩ := planned_made options plan planned
  obtain ⟨steady, steadied, calm⟩ := undrained_planned options plan planned nowMs now
  refine ⟨steady, steadied, ?_⟩
  exact
    { orphans := orphans_full made
      assigned := unassigned_undrained made calm
      batch := drained_at_most made
      leavers := leavers_exceed made calm
      failover := assigned_undrained made calm }

/-- Three cameras of a draining node whose capacity was cut to one of them. -/
def crowded : Options where
  installationId := none
  config := ⟨none, none, none, none⟩
  now := some 0
  nodeStates := [(nodeA, ⟨none, true, false, []⟩)]
  nodes := [⟨nodeA, .number 1⟩, ⟨nodeB, .number 4⟩]
  workloads := [⟨['1'], none⟩, ⟨['2'], none⟩, ⟨['3'], none⟩]
  previous := .registry [(['1'], nodeA), (['2'], nodeA), (['3'], nodeA)]

theorem crowded_sparing : ∃ plan steady, planAssignments crowded = .ok plan ∧
    planAssignments (undrained crowded) = .ok steady ∧ Sparing crowded plan steady := by
  have timely : (planAssignments crowded).isOk = true := by decide +kernel
  cases planned : planAssignments crowded with
  | error refusal =>
    rw [planned] at timely
    cases timely
  | ok plan =>
    obtain ⟨steady, calm, sparing⟩ := plans_are_sparing crowded plan planned
    exact ⟨plan, steady, rfl, calm, sparing⟩

/-- The batch is one camera, and all three leave the draining node at once. -/
theorem crowded_leaves : ¬∀ options plan, planAssignments options = .ok plan →
    ∀ node ∈ plan.nodes, node.health = .draining →
      ((plan.revoked.filter fun revocation => revocation.nodeId = node.id).length : Rat) ≤
        (resolveSchedulerConfig options.config).drainBatch := by
  intro always
  have leave : ((planAssignments crowded).toOption.any fun plan =>
      plan.nodes.any fun node => node.health = .draining &&
        (plan.revoked.filter fun revocation => revocation.nodeId = node.id).length = 3) = true := by
    decide +kernel
  have batch : (resolveSchedulerConfig crowded.config).drainBatch = 1 := by decide +kernel
  cases planned : planAssignments crowded with
  | error refusal =>
    rw [planned] at leave
    cases leave
  | ok plan =>
    rw [planned] at leave
    obtain ⟨node, inNodes, found⟩ := any_eq_true.mp leave
    rw [Bool.and_eq_true, decide_eq_true_eq, decide_eq_true_eq] at found
    have bounded := always crowded plan planned node inNodes found.1
    rw [found.2, batch] at bounded
    norm_num at bounded

end DracVms.Scheduler
