import DracVms.Scheduler.Fencing

namespace DracVms.Scheduler

open List

open Json (Text field field_eq_some)

theorem planned_made (options : Options) (plan : Plan) (planned : planAssignments options = .ok plan) :
    ∃ nowMs leaseExpiresAt, options.now = some nowMs ∧
      Made options nowMs plan (planFleet options nowMs) ∧
      (plan.assignments, plan.nextToken) = issueTokens leaseExpiresAt
        (max (normalizePrevious options.previous).nextToken 1)
        (byId (planFleet options nowMs).records) := by
  cases now : options.now with
  | none =>
    rw [planAssignments, now] at planned
    cases planned
  | some nowMs =>
    obtain ⟨balanced, nodesFixed, recordsFixed⟩ := assignNodes_balanced options.config
      (normalizeNodeStates options.nodeStates) nowMs options.nodes
      (normalizePrevious options.previous) options.workloads
    cases lease : leaseEnd (resolveSchedulerConfig options.config) nowMs with
    | none =>
      simp only [planAssignments, now, lease] at planned
      cases planned
    | some leaseExpiresAt =>
      cases date : dateOf nowMs with
      | none =>
        simp only [planAssignments, now, lease, date] at planned
        cases planned
      | some generatedAt =>
        simp only [planAssignments, now, lease, date] at planned
        cases planned
        refine ⟨nowMs, leaseExpiresAt, rfl, ?_, rfl⟩
        exact ⟨balanced, nodesFixed, recordsFixed, rfl, issueTokens_issued _ _ _, rfl, rfl⟩

/-- The leases of the previous plan against the next one. An owner without a token has none to keep. -/
structure Accounted (previous : PreviousState) (plan : Plan) : Prop where
  kept_or_revoked : ∀ cameraId entry, (cameraId, entry) ∈ previous.byCamera →
    (∃ assignment ∈ plan.assignments, assignment.cameraId = cameraId ∧
      assignment.nodeId = entry.nodeId ∧ ∀ token, entry.token = some token →
        assignment.token = token) ∨
    ∃ revocation ∈ plan.revoked, revocation.cameraId = cameraId ∧
      revocation.nodeId = entry.nodeId ∧ revocation.token = entry.token
  nothing_else : ∀ revocation ∈ plan.revoked,
    (revocation.cameraId, ⟨revocation.nodeId, revocation.token⟩) ∈ previous.byCamera ∧
      ∀ assignment ∈ plan.assignments, assignment.cameraId = revocation.cameraId →
        assignment.nodeId ≠ revocation.nodeId

section Made

variable {options : Options} {nowMs : Rat} {plan : Plan} {fleet : Fleet}

section

variable (made : Made options nowMs plan fleet)

include made

theorem Made.recordIds : ((byId fleet.records).map Record.id).Nodup :=
  ((byId_perm fleet.records).map Record.id).nodup_iff.mpr made.balanced.recordIds

theorem Made.record_of (assignment : Assignment) (member : assignment ∈ plan.assignments) :
    ∃ record ∈ byId fleet.records, record.id = assignment.cameraId ∧
      record.nodeId = some assignment.nodeId ∧ record.weight = assignment.weight := by
  have listed : assignment.view ∈ plan.assignments.map Assignment.view := mem_map_of_mem member
  rw [made.issued.views] at listed
  obtain ⟨record, inRecords, assigned⟩ := mem_filterMap.mp listed
  obtain ⟨host, home, view⟩ := Option.map_eq_some_iff.mp assigned
  have parts := Prod.mk.inj view
  have rest := Prod.mk.inj parts.2
  exact ⟨record, inRecords, parts.1, home.trans (congrArg some rest.1), rest.2⟩

theorem Made.assigned (record : Record) (member : record ∈ byId fleet.records) (host : Text)
    (home : record.nodeId = some host) :
    ∃ assignment ∈ plan.assignments, assignment.cameraId = record.id ∧
      assignment.nodeId = host ∧ assignment.weight = record.weight ∧
      (record.previousNodeId = some host → ∀ token, record.previousToken = some token →
        assignment.token = token) := by
  have listed : (record.id, host, record.weight) ∈ plan.assignments.map Assignment.view := by
    rw [made.issued.views]
    refine mem_filterMap.mpr ⟨record, member, ?_⟩
    rw [Record.assigned, home]
    rfl
  obtain ⟨assignment, inPlan, view⟩ := mem_map.mp listed
  have parts := Prod.mk.inj view
  have rest := Prod.mk.inj parts.2
  refine ⟨assignment, inPlan, parts.1, rest.1, rest.2, ?_⟩
  intro owner token before
  rcases made.issued.tokens assignment inPlan with ⟨other, inOthers, named, -, kept⟩ | ⟨renewed, -⟩
  · rw [KeyedList.eq_of_key made.recordIds inOthers member (named.trans parts.1), before] at kept
    exact (Option.some.inj kept).symm
  · obtain ⟨other, inOthers, named, unowned⟩ := renewed
    rw [KeyedList.eq_of_key made.recordIds inOthers member (named.trans parts.1), rest.1] at unowned
    rw [unowned owner] at before
    cases before

theorem Made.requested (cameraId : Text) : cameraId ∈ (byId fleet.records).map Record.id ↔
      cameraId ∈ (normalizeWorkloads options.workloads).map Workload.id := by
  have fixed := congrArg (List.map Prod.fst) made.recordsFixed
  rw [map_map, map_map] at fixed
  have same : fleet.records.map Record.id =
      (orderWorkloads (normalizeWorkloads options.workloads)).map Workload.id := fixed
  rw [((byId_perm fleet.records).map Record.id).mem_iff, same,
    ((orderWorkloads_perm _).map Workload.id).mem_iff]

end

end Made

theorem revocationOf_some (record : Record) (revocation : Revocation) :
    revocationOf record = some revocation ↔ ∃ source, record.previousNodeId = some source ∧
      record.nodeId ≠ some source ∧
      revocation = ⟨record.id, source, record.previousToken, record.reason.getD .capacity⟩ := by
  unfold revocationOf
  cases before : record.previousNodeId with
  | none => simp
  | some source =>
    by_cases same : record.nodeId = some source
    · simp [same]
    · simp [same, eq_comm]

/-- Every lease of the previous plan is kept or revoked, and nothing else is revoked, exactly when
every camera of the previous plan is still in the workload list. -/
theorem revocations_account (options : Options) (plan : Plan)
    (planned : planAssignments options = .ok plan) :
    Accounted (normalizePrevious options.previous) plan ↔
      ∀ cameraId ∈ (normalizePrevious options.previous).byCamera.map Prod.fst,
        cameraId ∈ (normalizeWorkloads options.workloads).map Workload.id := by
  obtain ⟨nowMs, leaseExpiresAt, -, made, -⟩ := planned_made options plan planned
  have distinct := (normalizePrevious_known options.previous).1.distinct
  have revoked : ∀ revocation, revocation ∈ plan.revoked ↔
      ∃ record ∈ byId (planFleet options nowMs).records, ∃ source,
        record.previousNodeId = some source ∧ record.nodeId ≠ some source ∧
        revocation = ⟨record.id, source, record.previousToken, record.reason.getD .capacity⟩ := by
    intro revocation
    rw [made.revoked, mem_filterMap]
    exact exists_congr fun record => and_congr_right fun _ => revocationOf_some record revocation
  constructor
  · intro accounted cameraId listed
    obtain ⟨⟨camera, entry⟩, member, rfl⟩ := mem_map.mp listed
    apply (made.requested camera).mp
    rcases accounted.kept_or_revoked camera entry member with
      ⟨assignment, inPlan, rfl, -⟩ | ⟨revocation, inPlan, rfl, -⟩
    · obtain ⟨record, inRecords, named, -⟩ := made.record_of assignment inPlan
      rw [← named]
      exact mem_map_of_mem inRecords
    · obtain ⟨record, inRecords, source, -, -, rfl⟩ := (revoked revocation).mp inPlan
      exact mem_map_of_mem inRecords
  · intro requested
    refine ⟨?_, ?_⟩
    · intro cameraId entry member
      have present := (made.requested cameraId).mpr (requested cameraId (mem_map_of_mem member))
      obtain ⟨record, inRecords, rfl⟩ := mem_map.mp present
      have found := (field_eq_some _ distinct record.id entry).mpr member
      obtain ⟨owner, token⟩ := made.previous record inRecords
      rw [found] at owner token
      have owned : record.previousNodeId = some entry.nodeId := owner.symm
      have held : record.previousToken = entry.token := token.symm
      by_cases stays : record.nodeId = some entry.nodeId
      · left
        obtain ⟨assignment, inPlan, named, host, -, keeps⟩ :=
          made.assigned record inRecords entry.nodeId stays
        refine ⟨assignment, inPlan, named, host, ?_⟩
        intro token before
        exact keeps owned token (held.trans before)
      · right
        refine ⟨_, (revoked _).mpr ⟨record, inRecords, entry.nodeId, owned, stays, rfl⟩, rfl, rfl, ?_⟩
        exact held
    · intro revocation inPlan
      obtain ⟨record, inRecords, source, owned, left', rfl⟩ := (revoked revocation).mp inPlan
      obtain ⟨owner, token⟩ := made.previous record inRecords
      rw [owned] at owner
      obtain ⟨entry, found, rfl⟩ := Option.map_eq_some_iff.mp owner
      rw [found] at token
      refine ⟨?_, ?_⟩
      · have member := (field_eq_some _ distinct record.id entry).mp found
        have held : entry.token = record.previousToken := token
        rw [← held]
        exact member
      · intro assignment assigned camera host
        obtain ⟨other, inOthers, named, home, -⟩ := made.record_of assignment assigned
        have same := KeyedList.eq_of_key made.recordIds inOthers inRecords (named.trans camera)
        rw [same, host] at home
        exact left' home

/-- The camera belonged to this node and the other one is down. -/
def ownedBy (nodeId : Text) (down : List Text) : Options :=
  { oneCamera 0 down with previous := .list [⟨cameraOne, nodeId, .number 1, none⟩] }

theorem moved_accounted : ∃ plan, planAssignments (ownedBy nodeA [nodeA]) = .ok plan ∧
    Accounted (normalizePrevious (ownedBy nodeA [nodeA]).previous) plan := by
  have timely : (planAssignments (ownedBy nodeA [nodeA])).isOk = true := by decide +kernel
  cases planned : planAssignments (ownedBy nodeA [nodeA]) with
  | error refusal =>
    rw [planned] at timely
    cases timely
  | ok plan =>
    refine ⟨plan, rfl, (revocations_account _ plan planned).mpr ?_⟩
    decide +kernel

/-- The camera of the previous plan left the workload list, and its lease is nowhere. -/
theorem removedCamera_unrevoked : ¬∀ options plan, planAssignments options = .ok plan →
    Accounted (normalizePrevious options.previous) plan := by
  intro always
  have nothing : ((planAssignments { ownedBy nodeA [] with workloads := [] }).toOption.any
      fun plan => plan.assignments.isEmpty && plan.revoked.isEmpty) = true := by decide +kernel
  have owned : (normalizePrevious (ownedBy nodeA []).previous).byCamera.map Prod.fst =
      [cameraOne] := by decide +kernel
  cases planned : planAssignments { ownedBy nodeA [] with workloads := [] } with
  | error refusal =>
    rw [planned] at nothing
    cases nothing
  | ok plan =>
    rw [planned] at nothing
    simp [Except.toOption] at nothing
    have accounted := always _ plan planned
    obtain ⟨⟨camera, entry⟩, member, -⟩ : ∃ entry ∈
        (normalizePrevious (ownedBy nodeA []).previous).byCamera, entry.1 = cameraOne := by
      apply mem_map.mp
      exact mem_singleton_self _
    rcases accounted.kept_or_revoked camera entry member with
      ⟨assignment, inPlan, -⟩ | ⟨revocation, inPlan, -⟩
    · rw [nothing.1] at inPlan
      cases inPlan
    · rw [nothing.2] at inPlan
      cases inPlan

end DracVms.Scheduler
