import DracVms.Scheduler.Orphans

namespace DracVms.Scheduler

open List

open Json (Text field field_eq_some)
open JsString (trim trim_trim unitsLe unitsLe_total unitsLe_trans unitsLe_antisymm)
open KeyedList
open Binary64 (double Exact double_mono double_idem double_zero)

section Phases

variable (options : Options) (nowMs : Rat)

theorem retained_settles (record : Record)
    (member : record ∈ (retainedFleet options nowMs).1.records) (nodeId : Text)
    (home : record.nodeId = some nodeId)
    (calm : ∀ node ∈ registryNodes options nowMs, node.id = nodeId → node.health ≠ .draining) :
    record ∈ (planFleet options nowMs).records := by
  have retained := retainedFleet_retained options nowMs
  obtain ⟨placed, placedSame⟩ := placedFleet_balanced options nowMs
  obtain ⟨-, others, -⟩ := deferred_fate _ _ retained.balanced retained.waiting
  have unqueued : record.id ∉ (retainedFleet options nowMs).2.map Record.id := by
    intro listed
    obtain ⟨queued, inQueue, named⟩ := mem_map.mp listed
    obtain ⟨known, homeless⟩ := retained.waiting.listed queued inQueue
    rw [eq_of_key retained.balanced.recordIds known member named, home] at homeless
    cases homeless
  have inPlaced := others record member unqueued
  obtain ⟨-, fates, -⟩ := drained_fate (resolveSchedulerConfig options.config).drainBatch _ _ placed
    placed.nodeIds
  rcases fates record inPlaced with stays | ⟨host, -, home', ⟨node, inNodes, rfl, drains⟩, -⟩
  · exact stays
  · exfalso
    rw [home] at home'
    obtain ⟨built, inBuilt, sameId, -, health⟩ :=
      fixed_counterpart (placedSame.nodes.trans retained.nodes) node inNodes
    exact calm built inBuilt (sameId.trans (Option.some.inj home').symm) (health.trans drains)

theorem settled_holds (record : Record) (member : record ∈ (planFleet options nowMs).records)
    (nodeId : Text) (home : record.nodeId = some nodeId)
    (owned : record.previousNodeId = some nodeId)
    (calm : ∀ node ∈ registryNodes options nowMs, node.id = nodeId → node.health ≠ .draining) :
    Holds (normalizePrevious options.previous) (registryNodes options nowMs)
      (plannedWorkloads options) nodeId record.id := by
  have retained := retainedFleet_retained options nowMs
  have stayed := retainedFleet_stayed options nowMs
  obtain ⟨placed, placedSame⟩ := placedFleet_balanced options nowMs
  rcases planFleet_cases options nowMs record member with
    inPlaced | ⟨before, inPlaced, host, home', drains, target, -, -, rfl⟩
  · rcases placedFleet_cases options nowMs record inPlaced with
      ⟨inRetained, -⟩ | ⟨before, inRetained, homeless, target, inNodes, accepts, room, rfl⟩
    · exact (stayed.homes record inRetained nodeId).mp home
    · have here : target.id = nodeId := Option.some.inj home
      have retains : canRetain target = true := by
        have living := living_of_placeable target accepts
        simp [canRetain, living]
      have exceeded := leaver_exceeds options nowMs before inRetained target inNodes retains
        (owned.trans (congrArg some here.symm)) (by simp [homeless])
      exact absurd room (not_le.mpr exceeded.2)
  · exfalso
    obtain ⟨-, owner⟩ := draining_owner options nowMs before inPlaced host home' drains
    obtain ⟨node, inNodes, rfl, drains⟩ := drains
    obtain ⟨built, inBuilt, sameId, -, health⟩ :=
      fixed_counterpart (placedSame.nodes.trans retained.nodes) node inNodes
    have here : some node.id = some nodeId := owner.symm.trans owned
    exact calm built inBuilt (sameId.trans (Option.some.inj here)) (health.trans drains)

end Phases

/-- What the cameras weigh, in the planner's order, that a plan leaves on the node they were on. -/
def keptWeight (options : Options) (plan : Plan) (nodeId : Text) : Rat :=
  laden 0 ((orderWorkloads (normalizeWorkloads options.workloads)).filter fun workload =>
    (normalizePrevious options.previous).owner workload.id = some nodeId ∧
      (plan.assignments.any fun assignment =>
        assignment.cameraId = workload.id && assignment.nodeId = nodeId))

/-- The camera is on this node, with the token it had there if it had one. -/
def Keeps (plan : Plan) (cameraId nodeId : Text) (token : Option Rat) : Prop :=
  ∃ assignment ∈ plan.assignments, assignment.cameraId = cameraId ∧ assignment.nodeId = nodeId ∧
    ∀ t, token = some t → assignment.token = t

theorem laden_sublist {fewer more : List Workload} (sublist : fewer.Sublist more)
    (weighs : ∀ workload ∈ more, 0 < workload.weight) (least load : Rat) (below : least ≤ load)
    (rounded : double load = load) : laden least fewer ≤ laden load more := by
  induction sublist generalizing least load with
  | slnil => exact below
  | cons first rest ih =>
    have here := le_double_add rounded (weighs first mem_cons_self)
    exact ih (fun other present => weighs other (mem_cons_of_mem first present)) _ _
      (below.trans here) (double_idem _)
  | cons_cons first rest ih =>
    exact ih (fun other present => weighs other (mem_cons_of_mem first present)) _ _
      (double_mono (by linarith)) (double_idem _)

/-- Where the sums are exact, the order does not matter. -/
theorem laden_exact (before workloads : List Workload)
    (exact_ : Exact ((before ++ workloads).map Workload.weight)) :
    laden (before.map Workload.weight).sum workloads =
      ((before ++ workloads).map Workload.weight).sum := by
  induction workloads generalizing before with
  | nil =>
    rw [append_nil]
    rfl
  | cons first rest ih =>
    have split : before ++ first :: rest = (before ++ [first]) ++ rest := by simp
    rw [split] at exact_ ⊢
    have step : double ((before.map Workload.weight).sum + first.weight) =
        ((before ++ [first]).map Workload.weight).sum := by
      have whole := exact_ ((before ++ [first]).map Workload.weight)
        ((sublist_append_left _ rest).map Workload.weight).subperm
      rw [map_append, sum_append, map_singleton, sum_singleton] at whole ⊢
      exact whole
    rw [← ih _ exact_, ← step]
    rfl

variable {fleet : Fleet}

section Made

variable {options : Options} {nowMs : Rat} {plan : Plan}

theorem stored_entry (made : Made options nowMs plan fleet) (assignment : Assignment)
    (member : assignment ∈ plan.assignments) :
    (assignment.cameraId, ⟨assignment.nodeId, some assignment.token⟩) ∈
      (normalizePrevious (.plan plan.stored)).byCamera := by
  have normalised := made.stored_normalised
  have inStored : (⟨assignment.cameraId, assignment.nodeId, .number assignment.token,
      some assignment.leaseExpiresAt⟩ : StoredAssignment) ∈ plan.stored.assignments :=
    mem_map_of_mem member
  obtain ⟨above, -⟩ := normalised.below _ inStored assignment.token rfl
  rw [normalised.byCamera]
  refine mem_map.mpr ⟨_, inStored, ?_⟩
  show (_, PreviousEntry.mk _ (positive (some assignment.token))) = _
  rw [positive_number _ above]

theorem registry_one (node other : Node) (first : node ∈ registryNodes options nowMs)
    (second : other ∈ registryNodes options nowMs) (same : node.id = other.id) : node = other :=
  eq_of_key (buildNodes_registered _ _ _ _).1 first second same

section

variable (made : Made options nowMs plan (planFleet options nowMs))

include made

theorem Made.keeps_of_holds (cameraId : Text) (entry : PreviousEntry)
    (known : (cameraId, entry) ∈ (normalizePrevious options.previous).byCamera)
    (holds : Holds (normalizePrevious options.previous) (registryNodes options nowMs)
      (plannedWorkloads options) entry.nodeId cameraId)
    (calm : ∀ node ∈ registryNodes options nowMs, node.id = entry.nodeId → node.health ≠ .draining) :
    Keeps plan cameraId entry.nodeId entry.token := by
  have retained := retainedFleet_retained options nowMs
  have stayed := retainedFleet_stayed options nowMs
  have distinct := (normalizePrevious_known options.previous).1.distinct
  have found := (field_eq_some _ distinct cameraId entry).mpr known
  obtain ⟨record, inRetained, rfl⟩ : ∃ record ∈ (retainedFleet options nowMs).1.records,
      record.id = cameraId := by
    obtain ⟨node, -, -, -, workload, stays, rfl⟩ := holds
    apply mem_map.mp
    rw [retained.recordIds]
    exact mem_map_of_mem ((stay_sublist _ _ _ _ _).subset stays)
  have home := (stayed.homes record inRetained entry.nodeId).mpr holds
  have final := retained_settles options nowMs record inRetained entry.nodeId home calm
  have inById := (byId_perm _).mem_iff.mpr final
  obtain ⟨assignment, inPlan, named, host, -, token⟩ :=
    made.assigned record inById entry.nodeId home
  obtain ⟨owner, held⟩ := made.previous record inById
  rw [found] at owner held
  refine ⟨assignment, inPlan, named, host, ?_⟩
  intro t before
  exact token owner.symm t (held.symm.trans before)

theorem Made.keeps_owner (cameraId : Text) (entry : PreviousEntry) (workload : Workload)
    (known : (cameraId, entry) ∈ (normalizePrevious options.previous).byCamera)
    (requested : workload ∈ normalizeWorkloads options.workloads) (named : workload.id = cameraId)
    (node : Node) (inNodes : node ∈ plan.nodes) (host : node.id = entry.nodeId)
    (accepts : isPlaceable node = true) : Keeps plan cameraId entry.nodeId entry.token ∨
      node.capacity < double (keptWeight options plan entry.nodeId + workload.weight) := by
  have distinct := (normalizePrevious_known options.previous).1.distinct
  have found := (field_eq_some _ distinct cameraId entry).mpr known
  have owner : (normalizePrevious options.previous).owner workload.id = some entry.nodeId := by
    rw [PreviousState.owner, named, found]
    rfl
  obtain ⟨built, inBuilt, builtId, capacity, health⟩ :=
    fixed_counterpart made.nodes_fixed node inNodes
  have calm : ∀ other ∈ registryNodes options nowMs, other.id = entry.nodeId →
      other.health ≠ .draining := by
    intro other member same drains
    rw [registry_one other built member inBuilt (same.trans (host.symm.trans builtId.symm)),
      health] at drains
    rw [isPlaceable, drains] at accepts
    cases accepts
  have retains : canRetain built = true := by
    have living := living_of_placeable node accepts
    simp [canRetain, health, living]
  have inWorkloads : workload ∈ plannedWorkloads options :=
    (orderWorkloads_perm _).mem_iff.mpr requested
  by_cases stays : workload ∈ stay (normalizePrevious options.previous) entry.nodeId
      built.capacity 0 (plannedWorkloads options)
  · left
    exact made.keeps_of_holds cameraId entry known
      ⟨built, inBuilt, builtId.trans host, retains, workload, stays, named⟩ calm
  · right
    obtain ⟨-, weighs⟩ := plannedWorkloads_ids options
    have exceeded := stay_full workload _ _ _ 0 _ double_zero weighs inWorkloads owner stays
    rw [capacity] at exceeded
    refine lt_of_lt_of_le exceeded (double_mono ?_)
    apply add_le_add _ (le_refl _)
    have kept : ∀ other ∈ stay (normalizePrevious options.previous) entry.nodeId built.capacity 0
        (plannedWorkloads options),
        (decide ((normalizePrevious options.previous).owner other.id = some entry.nodeId ∧
          (plan.assignments.any fun assignment =>
            assignment.cameraId = other.id && assignment.nodeId = entry.nodeId))) = true := by
      intro other there
      have otherOwner := stay_owned other _ _ _ _ _ there
      obtain ⟨otherEntry, otherFound, otherHost⟩ := Option.map_eq_some_iff.mp otherOwner
      have holds : Holds (normalizePrevious options.previous) (registryNodes options nowMs)
          (plannedWorkloads options) otherEntry.nodeId other.id := by
        rw [otherHost]
        exact ⟨built, inBuilt, builtId.trans host, retains, other, there, rfl⟩
      have otherKnown := (field_eq_some _ distinct other.id otherEntry).mp otherFound
      obtain ⟨assignment, inPlan, camera, place, -⟩ :=
        made.keeps_of_holds other.id otherEntry otherKnown holds (by rw [otherHost]; exact calm)
      apply decide_eq_true
      refine ⟨otherOwner, any_eq_true.mpr ⟨assignment, inPlan, ?_⟩⟩
      rw [camera, place, otherHost]
      simp
    have sublist := (stay_sublist (normalizePrevious options.previous) entry.nodeId built.capacity 0
      (plannedWorkloads options)).filter fun other =>
        decide ((normalizePrevious options.previous).owner other.id = some entry.nodeId ∧
          (plan.assignments.any fun assignment =>
            assignment.cameraId = other.id && assignment.nodeId = entry.nodeId))
    rw [filter_eq_self.mpr kept] at sublist
    have bounded := laden_sublist sublist
      (fun other present => weighs other (mem_of_mem_filter present)) 0 0 (le_refl 0) double_zero
    rw [← capacity]
    exact bounded

theorem Made.stored_owner (record : Record) (member : record ∈ (planFleet options nowMs).records) :
    (normalizePrevious (.plan plan.stored)).owner record.id = record.nodeId := by
  have normalised := made.stored_normalised
  have distinct := (normalizePrevious_known (.plan plan.stored)).1.distinct
  have inById := (byId_perm _).mem_iff.mpr member
  rw [PreviousState.owner]
  cases home : record.nodeId with
  | some host =>
    obtain ⟨assignment, inPlan, named, hosted, -⟩ := made.assigned record inById host home
    have known := stored_entry made assignment inPlan
    rw [named, hosted] at known
    rw [(field_eq_some _ distinct _ _).mpr known]
    rfl
  | none =>
    apply Option.map_eq_none_iff.mpr
    apply Option.eq_none_iff_forall_ne_some.mpr
    intro entry found
    obtain ⟨old, inStored, named, -⟩ :=
      normalised.known record.id entry ((field_eq_some _ distinct _ _).mp found)
    obtain ⟨assignment, inPlan, rfl⟩ := mem_map.mp inStored
    obtain ⟨other, inOther, sameId, hosted, -⟩ := made.record_of assignment inPlan
    have one := eq_of_key made.recordIds inOther inById (sameId.trans named)
    rw [one, home] at hosted
    cases hosted

theorem Made.owned_laden (exact_ : Exact ((normalizeWorkloads options.workloads).map Workload.weight))
    (node : Node) (member : node ∈ (planFleet options nowMs).nodes) :
    laden 0 ((plannedWorkloads options).filter fun workload =>
      (normalizePrevious (.plan plan.stored)).owner workload.id = some node.id) = node.load := by
  have pairs : ∀ (records : List Record) (workloads : List Workload),
      records.map Record.fixed =
        workloads.map (Workload.fixed (normalizePrevious options.previous)) →
      (∀ record ∈ records,
        (normalizePrevious (.plan plan.stored)).owner record.id = record.nodeId) →
      ((workloads.filter fun workload =>
        (normalizePrevious (.plan plan.stored)).owner workload.id = some node.id).map
          Workload.weight).sum = (records.map (share node.id)).sum := by
    intro records
    induction records with
    | nil =>
      intro workloads same _
      rw [map_eq_nil_iff.mp same.symm]
      rfl
    | cons record rest ih =>
      intro workloads same owned
      obtain ⟨workload, others, rfl, fixed, later⟩ := map_eq_cons_iff.mp same.symm
      have named : workload.id = record.id := congrArg Prod.fst fixed
      have weight : workload.weight = record.weight := congrArg (fun fixed => fixed.2.1) fixed
      have tail := ih others later.symm fun other present =>
        owned other (mem_cons_of_mem _ present)
      rw [map_cons, sum_cons, ← tail, filter_cons, named, owned record mem_cons_self, share]
      by_cases here : record.nodeId = some node.id
      · rw [if_pos (decide_eq_true here), if_pos here, map_cons, sum_cons, weight]
      · rw [if_neg (by simp [here]), if_neg here, zero_add]
  have planned : Exact ((plannedWorkloads options).map Workload.weight) :=
    exact_.subperm ((orderWorkloads_perm _).map _).subperm
  rw [made.balanced.loads (exact_.subperm made.weights_perm.subperm) node member,
    ← pairs _ _ made.recordsFixed made.stored_owner]
  exact laden_exact [] _ (planned.subperm (filter_sublist.map _).subperm)

theorem Made.workload_of (record : Record) (member : record ∈ (planFleet options nowMs).records) :
    ∃ workload ∈ plannedWorkloads options, workload.id = record.id ∧
      workload.weight = record.weight := by
  have listed : record.fixed ∈ (planFleet options nowMs).records.map Record.fixed :=
    mem_map_of_mem member
  rw [made.recordsFixed] at listed
  obtain ⟨workload, inWorkloads, fixed⟩ := mem_map.mp listed
  exact ⟨workload, inWorkloads, congrArg Prod.fst fixed, congrArg (fun fixed => fixed.2.1) fixed⟩

end

end Made

/-- A later request that starts from the saved plan, for the same workloads. -/
structure Resumes (plan : Plan) (options again : Options) : Prop where
  previous : again.previous = .plan plan.stored
  workloads : again.workloads = options.workloads

section Again

variable {options again : Options} {nowMs laterMs : Rat} {plan later : Plan}

section

variable (resumes : Resumes plan options again)
  (exact_ : Exact ((normalizeWorkloads options.workloads).map Workload.weight))
  (made : Made options nowMs plan (planFleet options nowMs))

include resumes exact_ made

theorem Resumes.holds (node : Node) (inNodes : node ∈ (planFleet options nowMs).nodes) (host : Node)
    (inHosts : host ∈ registryNodes again laterMs) (sameId : host.id = node.id)
    (retains : canRetain host = true) (room : node.capacity ≤ host.capacity) (cameraId : Text)
    (assigned : AssignedTo plan cameraId node.id) :
    Holds (normalizePrevious again.previous) (registryNodes again laterMs)
      (plannedWorkloads again) node.id cameraId := by
  have workloads : plannedWorkloads again = plannedWorkloads options := by
    rw [plannedWorkloads, resumes.workloads, plannedWorkloads]
  obtain ⟨-, weighs⟩ := plannedWorkloads_ids options
  rw [resumes.previous, workloads]
  have fits : laden 0 ((plannedWorkloads options).filter fun workload =>
      (normalizePrevious (.plan plan.stored)).owner workload.id = some node.id) ≤
        host.capacity := by
    rw [made.owned_laden exact_ node inNodes]
    exact (made.balanced.capacities node inNodes).trans room
  obtain ⟨record, inRecords, named, home⟩ := (made.assignedTo cameraId node.id).mp assigned
  have requested := (made.requested cameraId).mp
    (mem_map.mpr ⟨record, (byId_perm _).mem_iff.mpr inRecords, named⟩)
  obtain ⟨workload, inWorkloads, same⟩ := mem_map.mp requested
  refine ⟨host, inHosts, sameId, retains, workload, ?_, same⟩
  rw [stay_all _ _ _ _ _ double_zero weighs fits]
  refine mem_filter.mpr ⟨(orderWorkloads_perm _).mem_iff.mpr inWorkloads, ?_⟩
  rw [same, ← named, made.stored_owner record inRecords, home]
  exact decide_eq_true rfl

theorem Resumes.keeps (remade : Made again laterMs later (planFleet again laterMs))
    (assignment : Assignment) (member : assignment ∈ plan.assignments) (node : Node)
    (inNodes : node ∈ plan.nodes) (hosted : node.id = assignment.nodeId) (host : Node)
    (inHosts : host ∈ later.nodes) (sameId : host.id = assignment.nodeId)
    (accepts : isPlaceable host = true) (room : node.capacity ≤ host.capacity) :
    Keeps later assignment.cameraId assignment.nodeId (some assignment.token) := by
  obtain ⟨built, inBuilt, builtId, capacity, health⟩ :=
    fixed_counterpart remade.nodes_fixed host inHosts
  obtain ⟨before, inBefore, fixed, -⟩ := made.node_of node inNodes
  have beforeId : before.id = assignment.nodeId := (congrArg Prod.fst fixed).trans hosted
  have beforeCapacity : before.capacity = node.capacity :=
    congrArg (fun fixed => fixed.2.2.1) fixed
  have living := living_of_placeable host accepts
  have calm : ∀ other ∈ registryNodes again laterMs, other.id = assignment.nodeId →
      other.health ≠ .draining := by
    intro other inOthers same drains
    rw [registry_one other built inOthers inBuilt (same.trans (sameId.symm.trans builtId.symm)),
      health] at drains
    rw [isPlaceable, drains] at accepts
    cases accepts
  have known := stored_entry made assignment member
  rw [← resumes.previous] at known
  refine remade.keeps_of_holds assignment.cameraId _ known ?_ calm
  rw [← beforeId]
  refine resumes.holds exact_ made before inBefore built inBuilt ?_ ?_ ?_ _ ?_
  · exact builtId.trans (sameId.trans beforeId.symm)
  · simp [canRetain, health, living]
  · rw [capacity, beforeCapacity]
    exact room
  · exact ⟨assignment, member, rfl, beforeId.symm⟩

theorem Resumes.unassigned (remade : Made again laterMs later (planFleet again laterMs))
    (sameNodes : (registryNodes again laterMs).map Node.fixed = (registryNodes options nowMs).map
      Node.fixed)
    (calm : ∀ node ∈ registryNodes again laterMs, node.health ≠ .draining) (record : Record)
    (member : record ∈ (planFleet options nowMs).records) (homeless : record.nodeId = none)
    (nodeId : Text) : ¬AssignedTo later record.id nodeId := by
  have workloads : plannedWorkloads again = plannedWorkloads options := by
    rw [plannedWorkloads, resumes.workloads, plannedWorkloads]
  obtain ⟨distinct, weighs⟩ := plannedWorkloads_ids options
  have retained := retainedFleet_retained again laterMs
  have stayed := retainedFleet_stayed again laterMs
  obtain ⟨placed, placedSame⟩ := placedFleet_balanced again laterMs
  intro assigned
  obtain ⟨other, inOther, named, home⟩ := (remade.assignedTo record.id nodeId).mp assigned
  have unowned := made.stored_owner record member
  rw [homeless, ← named, ← resumes.previous] at unowned
  rcases planFleet_cases again laterMs other inOther with
    inPlaced | ⟨-, -, host, -, ⟨node, inNodes, -, drains⟩, -⟩
  · rcases placedFleet_cases again laterMs other inPlaced with
      ⟨inRetained, -⟩ | ⟨before, inRetained, -, target, inNodes, accepts, room, rfl⟩
    · obtain ⟨node, -, -, -, workload, stays, same⟩ :=
        (stayed.homes other inRetained nodeId).mp home
      have owner := stay_owned workload _ _ _ _ _ stays
      rw [same, unowned] at owner
      cases owner
    · obtain ⟨built, inBuilt, builtId, capacity, health⟩ :=
        fixed_counterpart (retained.nodes.trans (sameNodes.trans made.nodesFixed.symm)) target
          inNodes
      have full := homeless_noRoom options nowMs record member homeless built inBuilt
      have living := living_of_placeable target accepts
      have load := stayed.loads target inNodes (by simp [canRetain, living])
      have fits : laden 0 ((plannedWorkloads options).filter fun workload =>
          (normalizePrevious (.plan plan.stored)).owner workload.id = some target.id) ≤
            target.capacity := by
        rw [← builtId, made.owned_laden exact_ built inBuilt, ← capacity]
        exact made.balanced.capacities built inBuilt
      rw [resumes.previous, workloads, stay_all _ _ _ _ _ double_zero weighs fits, ← builtId,
        made.owned_laden exact_ built inBuilt] at load
      obtain ⟨workload, inWorkloads, first, weight⟩ := made.workload_of record member
      obtain ⟨-, again', inAgain, second, weight'⟩ := record_owner again laterMs before inRetained
      rw [workloads] at inAgain
      have one := eq_of_key distinct inAgain inWorkloads (second.trans (named.trans first.symm))
      rw [one] at weight'
      rw [load, ← weight', weight, ← capacity] at room
      refine absurd room (not_le.mpr (full ?_))
      rw [isPlaceable, health]
      exact accepts
  · obtain ⟨built, inBuilt, -, -, health⟩ :=
      fixed_counterpart (placedSame.nodes.trans retained.nodes) node inNodes
    exact calm built inBuilt (health.trans drains)

end

/-- What an assignment says, but for the time until which it holds. -/
def Assignment.row (assignment : Assignment) : Text × Text × Rat × Rat :=
  (assignment.cameraId, assignment.nodeId, assignment.weight, assignment.token)

theorem Made.rows_sorted (made : Made options nowMs plan fleet) :
    ((plan.assignments.map Assignment.row).map Prod.fst).Nodup ∧
      (plan.assignments.map Assignment.row).Pairwise fun a b => unitsLe a.1 b.1 = true := by
  have cameras : (plan.assignments.map Assignment.row).map Prod.fst =
      ((byId fleet.records).filterMap Record.assigned).map Prod.fst := by
    rw [← made.issued.views, map_map, map_map]
    rfl
  have sublist := assigned_ids (byId fleet.records)
  rw [← cameras] at sublist
  exact ⟨sublist.nodup made.recordIds,
    pairwise_map.mp ((byId_sorted fleet.records).sublist sublist)⟩

theorem Resumes.settles (resumes : Resumes plan options again)
    (exact_ : Exact ((normalizeWorkloads options.workloads).map Workload.weight))
    (made : Made options nowMs plan (planFleet options nowMs))
    (remade : Made again laterMs later (planFleet again laterMs))
    (sameNodes : later.nodes.map Node.fixed = plan.nodes.map Node.fixed)
    (calm : ∀ node ∈ later.nodes, node.health ≠ .draining) :
    later.assignments.map Assignment.row = plan.assignments.map Assignment.row := by
  have fixed := remade.nodes_fixed.symm.trans (sameNodes.trans made.nodes_fixed)
  obtain ⟨distinct, -, -⟩ := normalizeWorkloads_ids options.workloads
  obtain ⟨laterOnce, laterSorted⟩ := remade.rows_sorted
  obtain ⟨once, sorted⟩ := made.rows_sorted
  have kept : ∀ assignment ∈ plan.assignments,
      assignment.row ∈ later.assignments.map Assignment.row := by
    intro assignment member
    obtain ⟨node, inNodes, hosted, alive⟩ := made.sane.hosts assignment member
    obtain ⟨host, inHosts, hostId, capacity, health⟩ :=
      fixed_counterpart sameNodes.symm node inNodes
    have accepts : isPlaceable host = true := by
      have drains := calm host inHosts
      rw [isPlaceable]
      cases state : host.health with
      | alive | unknown => rfl
      | draining => exact absurd state drains
      | dead => exact absurd (health.symm.trans state) alive
    obtain ⟨same, inLater, camera, place, token⟩ :=
      resumes.keeps exact_ made remade assignment member node inNodes hosted host inHosts
        (hostId.trans hosted) accepts capacity.symm.le
    have weighs := made.sane.costs assignment member
    have weighs' := remade.sane.costs same inLater
    rw [resumes.workloads] at weighs'
    have weight : same.weight = assignment.weight :=
      congrArg Workload.weight (eq_of_key distinct weighs' weighs camera)
    refine mem_map.mpr ⟨same, inLater, ?_⟩
    rw [Assignment.row, camera, place, weight, token _ rfl]
    rfl
  have others : ∀ same ∈ later.assignments,
      same.row ∈ plan.assignments.map Assignment.row := by
    intro same inLater
    obtain ⟨record, inRecords, named⟩ : ∃ record ∈ (planFleet options nowMs).records,
        record.id = same.cameraId := by
      have requested : same.cameraId ∈ (normalizeWorkloads options.workloads).map Workload.id := by
        rw [← resumes.workloads]
        exact mem_map_of_mem (f := Workload.id) (remade.sane.costs same inLater)
      obtain ⟨record, inById, named⟩ := mem_map.mp ((made.requested _).mpr requested)
      exact ⟨record, (byId_perm _).mem_iff.mp inById, named⟩
    cases home : record.nodeId with
    | none =>
      exfalso
      refine resumes.unassigned exact_ made remade fixed ?_ record inRecords home same.nodeId
        ⟨same, inLater, named.symm, rfl⟩
      intro node member
      obtain ⟨host, inHosts, -, -, health⟩ :=
        fixed_counterpart remade.nodes_fixed.symm node member
      rw [← health]
      exact calm host inHosts
    | some nodeId =>
      obtain ⟨assignment, member, camera, -⟩ :=
        made.assigned record ((byId_perm _).mem_iff.mpr inRecords) nodeId home
      have there := kept assignment member
      have one := eq_of_key laterOnce (mem_map_of_mem inLater) there (named.symm.trans camera.symm)
      rw [one]
      exact mem_map_of_mem member
  have perm : (later.assignments.map Assignment.row).Perm
      (plan.assignments.map Assignment.row) := by
    apply (perm_ext_iff_of_nodup laterOnce.of_map once.of_map).mpr
    intro row
    constructor
    · intro listed
      obtain ⟨same, inLater, rfl⟩ := mem_map.mp listed
      exact others same inLater
    · intro listed
      obtain ⟨assignment, member, rfl⟩ := mem_map.mp listed
      exact kept assignment member
  refine perm.eq_of_pairwise ?_ laterSorted sorted
  intro a b inLater inPlan before after
  exact eq_of_key once (perm.mem_iff.mp inLater) inPlan (unitsLe_antisymm a.1 b.1 before after)

end Again

/-- Without the nodes of new ids, the second registry is the first one. -/
def Extended (fewer more : List RawNode) : Prop :=
  more.filter (fun raw => trim raw.id ∈ fewer.map fun raw => trim raw.id) = fewer

theorem buildNodes_filter (config : Config) (states : List (Text × NodeState)) (nowMs : Rat)
    (keep : Text → Bool) (registry : List RawNode) :
    (buildNodes config states nowMs registry).filter (fun node => keep node.id) =
      buildNodes config states nowMs (registry.filter fun raw => keep (trim raw.id)) := by
  have named : normalizeComputeNodes (registry.filter fun raw => keep (trim raw.id)) =
      (normalizeComputeNodes registry).filter fun raw => keep raw.id := by
    rw [normalizeComputeNodes, normalizeComputeNodes, filter_map]
    rfl
  have sorted := insertionSort_filter (fun a b : ComputeNode => unitsLe a.id b.id = true)
    (fun a b => unitsLe_total a.id b.id) (fun a b c => unitsLe_trans a.id b.id c.id)
  rw [buildNodes, buildNodes, named, sorted]
  generalize (normalizeComputeNodes registry).insertionSort
    (fun a b => unitsLe a.id b.id = true) = rest
  have step : ∀ (rest : List ComputeNode) (done : List Node)
      (grow : List Node → ComputeNode → List Node),
      (∀ done raw, grow done raw = if raw.id = [] ∨ raw.id ∈ done.map Node.id then done
        else done ++ [{
          id := raw.id
          declaredCapacity := raw.capacity
          capacity := raw.capacity.getD config.defaultNodeCapacity
          health := nodeHealth (field states raw.id) nowMs config
          load := 0
          cameras := [] }]) →
      (rest.foldl grow done).filter (fun node => keep node.id) =
        (rest.filter fun raw => keep raw.id).foldl grow (done.filter fun node => keep node.id) := by
    intro rest
    induction rest with
    | nil => exact fun _ _ _ => rfl
    | cons raw rest ih =>
      intro done grow grows
      rw [foldl_cons, ih _ grow grows, filter_cons]
      have listed : keep raw.id = true →
          (raw.id ∈ (done.filter fun node => keep node.id).map Node.id ↔
            raw.id ∈ done.map Node.id) := by
        intro kept
        rw [mem_map, mem_map]
        constructor
        · rintro ⟨node, member, same⟩
          exact ⟨node, mem_of_mem_filter member, same⟩
        · rintro ⟨node, member, same⟩
          refine ⟨node, mem_filter.mpr ⟨member, ?_⟩, same⟩
          rw [same]
          exact kept
      cases kept : keep raw.id with
      | false =>
        rw [if_neg nofun, grows]
        split
        · rfl
        · rw [filter_append, filter_cons_of_neg (by simp [kept]), filter_nil, append_nil]
      | true =>
        have same := or_congr_right (a := raw.id = []) (listed kept)
        rw [if_pos rfl, foldl_cons, grows, grows]
        by_cases skipped : raw.id = [] ∨ raw.id ∈ done.map Node.id
        · rw [if_pos skipped, if_pos (same.mpr skipped)]
        · rw [if_neg skipped, if_neg (same.not.mpr skipped), filter_append]
          simp [kept]
  exact step rest [] _ fun _ _ => rfl

section Growth

variable {options : Options} {more : List RawNode} {nowMs : Rat}

theorem Extended.registry (extended : Extended options.nodes more) (node : Node)
    (member : node ∈ registryNodes options nowMs) :
    node ∈ registryNodes { options with nodes := more } nowMs := by
  have filtered := buildNodes_filter (resolveSchedulerConfig options.config)
    (normalizeNodeStates options.nodeStates) nowMs
    (fun id => id ∈ options.nodes.map fun raw => trim raw.id) more
  have fewer : more.filter (fun raw => decide
      (trim raw.id ∈ options.nodes.map fun raw => trim raw.id)) = options.nodes := extended
  rw [fewer] at filtered
  rw [registryNodes, ← filtered] at member
  exact mem_of_mem_filter member

/-- More nodes leave the cameras where they are that had settled there without them. -/
theorem Extended.keeps {plan later : Plan} (extended : Extended options.nodes more)
    (made : Made options nowMs plan (planFleet options nowMs))
    (remade : Made { options with nodes := more } nowMs later (planFleet { options with nodes :=
      more } nowMs))
    (assignment : Assignment) (member : assignment ∈ plan.assignments) (entry : PreviousEntry)
    (known : (assignment.cameraId, entry) ∈ (normalizePrevious options.previous).byCamera)
    (stayed : entry.nodeId = assignment.nodeId) (node : Node) (inNodes : node ∈ plan.nodes)
    (hosted : node.id = assignment.nodeId) (calm : node.health ≠ .draining) :
    Keeps later assignment.cameraId assignment.nodeId entry.token := by
  have distinct := (normalizePrevious_known options.previous).1.distinct
  have found := (field_eq_some _ distinct _ _).mpr known
  obtain ⟨record, inRecords, named, home, -⟩ := made.record_of assignment member
  obtain ⟨owner, -⟩ := made.previous record inRecords
  rw [named, found] at owner
  obtain ⟨built, inBuilt, builtId, -, health⟩ := fixed_counterpart made.nodes_fixed node inNodes
  have before : ∀ other ∈ registryNodes options nowMs, other.id = assignment.nodeId →
      other.health ≠ .draining := by
    intro other inOthers same
    rw [registry_one other built inOthers inBuilt (same.trans (hosted.symm.trans builtId.symm)),
      health]
    exact calm
  obtain ⟨host, inHosts, hostId, retains, workload, stays, same⟩ :=
    settled_holds options nowMs record ((byId_perm _).mem_iff.mp inRecords) assignment.nodeId home
      (owner.symm.trans (congrArg some stayed)) before
  have hostThere := extended.registry host inHosts
  have holds : Holds (normalizePrevious options.previous)
      (registryNodes { options with nodes := more } nowMs) (plannedWorkloads options)
      entry.nodeId assignment.cameraId := by
    rw [stayed, ← named]
    exact ⟨host, hostThere, hostId, retains, workload, stays, same⟩
  rw [← stayed]
  refine remade.keeps_of_holds assignment.cameraId entry known holds ?_
  intro other inOthers otherId
  rw [registry_one other host inOthers hostThere (otherId.trans (stayed.trans hostId.symm))]
  exact before host inHosts hostId

end Growth

/-- A plan moves a camera only when it has to. -/
structure Sticky (options : Options) (plan : Plan) : Prop where
  keeps : ∀ cameraId entry workload,
    (cameraId, entry) ∈ (normalizePrevious options.previous).byCamera →
    workload ∈ normalizeWorkloads options.workloads → workload.id = cameraId →
    ∀ node ∈ plan.nodes, node.id = entry.nodeId → isPlaceable node = true →
    Keeps plan cameraId entry.nodeId entry.token ∨
      node.capacity < double (keptWeight options plan entry.nodeId + workload.weight)
  resumes : Exact ((normalizeWorkloads options.workloads).map Workload.weight) →
    ∀ again later, Resumes plan options again → planAssignments again = .ok later →
    ∀ assignment ∈ plan.assignments, ∀ node ∈ plan.nodes, node.id = assignment.nodeId →
    ∀ host ∈ later.nodes, host.id = assignment.nodeId → isPlaceable host = true →
    node.capacity ≤ host.capacity →
    Keeps later assignment.cameraId assignment.nodeId (some assignment.token)
  settles : Exact ((normalizeWorkloads options.workloads).map Workload.weight) →
    ∀ again later, Resumes plan options again → planAssignments again = .ok later →
    later.nodes.map Node.fixed = plan.nodes.map Node.fixed →
    (∀ node ∈ later.nodes, node.health ≠ .draining) →
    later.assignments.map Assignment.row = plan.assignments.map Assignment.row
  grows : ∀ more later, Extended options.nodes more →
    planAssignments { options with nodes := more } = .ok later →
    ∀ assignment ∈ plan.assignments, ∀ entry,
    (assignment.cameraId, entry) ∈ (normalizePrevious options.previous).byCamera →
    entry.nodeId = assignment.nodeId →
    ∀ node ∈ plan.nodes, node.id = assignment.nodeId → node.health ≠ .draining →
    Keeps later assignment.cameraId assignment.nodeId entry.token

theorem plans_are_sticky (options : Options) (plan : Plan)
    (planned : planAssignments options = .ok plan) : Sticky options plan := by
  obtain ⟨nowMs, -, now, made, -⟩ := planned_made options plan planned
  refine ⟨?_, ?_, ?_, ?_⟩
  · intro cameraId entry workload known requested named node inNodes host accepts
    exact made.keeps_owner cameraId entry workload known requested named node inNodes host accepts
  · intro exact_ again later resumes replanned assignment member node inNodes hosted host inHosts
      sameId accepts room
    obtain ⟨laterMs, -, -, remade, -⟩ := planned_made again later replanned
    exact resumes.keeps exact_ made remade assignment member node inNodes hosted host inHosts sameId
      accepts room
  · intro exact_ again later resumes replanned sameNodes calm
    obtain ⟨laterMs, -, -, remade, -⟩ := planned_made again later replanned
    exact resumes.settles exact_ made remade sameNodes calm
  · intro more later extended replanned assignment member entry known stayed node inNodes hosted
      calm
    obtain ⟨sameMs, -, same, remade, -⟩ := planned_made _ later replanned
    have one : sameMs = nowMs := Option.some.inj (same.symm.trans now)
    rw [one] at remade
    exact extended.keeps made remade assignment member entry known stayed node inNodes hosted calm

/-- One camera keeps its node, which two others fill up to seven tenths. -/
def sevenTenths : Options :=
  { oneCamera 0 [] with
    nodes := [⟨nodeA, .number (7 / 10)⟩]
    workloads := [⟨['1'], some (1 / 10)⟩, ⟨['2'], some (4 / 10)⟩, ⟨['3'], some (2 / 10)⟩]
    previous := .registry [(['1'], nodeA)] }

/-- Added up in another order, they exceed it. -/
theorem sevenTenths_moves : ¬∀ options again plan later, Resumes plan options again →
    planAssignments options = .ok plan → planAssignments again = .ok later →
    later.nodes.map Node.fixed = plan.nodes.map Node.fixed →
    (∀ node ∈ later.nodes, node.health ≠ .draining) →
    later.assignments.map Assignment.row = plan.assignments.map Assignment.row := by
  intro always
  let again (plan : Plan) : Options := { sevenTenths with previous := .plan plan.stored }
  have checked : (planAssignments sevenTenths).toOption.any (fun plan =>
      (planAssignments (again plan)).toOption.any fun later =>
        later.nodes.map Node.fixed = plan.nodes.map Node.fixed &&
        (later.nodes.all fun node => node.health ≠ .draining) &&
        later.assignments.length < plan.assignments.length) = true := by decide +kernel
  cases planned : planAssignments sevenTenths with
  | error refusal =>
    rw [planned] at checked
    cases checked
  | ok plan =>
    rw [planned] at checked
    cases replanned : planAssignments (again plan) with
    | error refusal =>
      simp [Except.toOption, replanned] at checked
    | ok later =>
      simp only [Except.toOption, Option.any_some, replanned, Bool.and_eq_true, all_eq_true,
        decide_eq_true_eq] at checked
      obtain ⟨⟨same, calm⟩, fewer⟩ := checked
      have rows := always sevenTenths (again plan) plan later ⟨rfl, rfl⟩ planned replanned same calm
      have count := congrArg List.length rows
      rw [length_map, length_map] at count
      omega

/-- One camera on a node that drains, and no other node. -/
def leaving : Options :=
  { ownedBy nodeA [] with
    nodeStates := [(nodeA, ⟨none, true, false, []⟩)]
    nodes := [⟨nodeA, .number 4⟩] }

theorem leaving_sticky : (∃ plan, planAssignments leaving = .ok plan ∧ Sticky leaving plan) ∧
    Exact ((normalizeWorkloads leaving.workloads).map Workload.weight) := by
  refine ⟨?_, @Exact.of_whole [1] (by decide)⟩
  have timely : (planAssignments leaving).isOk = true := by decide +kernel
  cases planned : planAssignments leaving with
  | error refusal =>
    rw [planned] at timely
    cases timely
  | ok plan => exact ⟨plan, rfl, plans_are_sticky leaving plan planned⟩

/-- A new node takes the cameras of a node that drains, and a plan that is planned again moves. -/
theorem leaving_moves : (¬∀ options more plan later, Extended options.nodes more →
    planAssignments options = .ok plan →
    planAssignments { options with nodes := more } = .ok later →
    ∀ assignment ∈ plan.assignments, ∀ entry,
      (assignment.cameraId, entry) ∈ (normalizePrevious options.previous).byCamera →
      entry.nodeId = assignment.nodeId →
      Keeps later assignment.cameraId assignment.nodeId entry.token) ∧
    ¬∀ options again plan later, Resumes plan options again →
      planAssignments options = .ok plan → planAssignments again = .ok later →
      later.nodes.map Node.fixed = plan.nodes.map Node.fixed →
      (∀ node ∈ later.nodes, node.health ≠ .draining) →
      later.assignments.map Assignment.row = plan.assignments.map Assignment.row := by
  refine ⟨?_, sevenTenths_moves⟩
  intro always
  have before : ((planAssignments leaving).toOption.map fun plan => plan.assignments.map
      fun assignment => (assignment.cameraId, assignment.nodeId)) = some [(cameraOne, nodeA)] := by
    decide +kernel
  have after : (planAssignments { leaving with nodes := (oneCamera 0 []).nodes }).toOption.map
      (fun plan => plan.assignments.map Assignment.nodeId) = some [nodeB] := by decide +kernel
  have owned : (cameraOne, ⟨nodeA, some 1⟩) ∈ (normalizePrevious leaving.previous).byCamera :=
    mem_singleton_self _
  have extended : Extended leaving.nodes (oneCamera 0 []).nodes := rfl
  cases planned : planAssignments leaving with
  | error refusal =>
    rw [planned] at before
    cases before
  | ok plan =>
    rw [planned] at before
    cases replanned : planAssignments { leaving with nodes := (oneCamera 0 []).nodes } with
    | error refusal =>
      rw [replanned] at after
      cases after
    | ok later =>
      rw [replanned] at after
      have listed : (cameraOne, nodeA) ∈ plan.assignments.map fun assignment =>
          (assignment.cameraId, assignment.nodeId) := by
        rw [show plan.assignments.map _ = _ from Option.some.inj before]
        exact mem_singleton_self _
      obtain ⟨assignment, member, same⟩ := mem_map.mp listed
      obtain ⟨camera, host⟩ := Prod.mk.inj same
      obtain ⟨moved, inLater, -, place, -⟩ := always leaving _ plan later extended planned
        replanned assignment member ⟨nodeA, some 1⟩ (by rw [camera]; exact owned) host.symm
      have there : moved.nodeId ∈ later.assignments.map Assignment.nodeId :=
        mem_map_of_mem inLater
      rw [show later.assignments.map _ = _ from Option.some.inj after, mem_singleton, place,
        host] at there
      exact absurd there (by decide)

end DracVms.Scheduler
