import DracVms.Scheduler.Accounting

namespace DracVms.Scheduler

open List

open Json (Text field setField setField_nodup mem_setField field_eq_some)
open JsString (trim unitsLe unitsLe_total unitsLe_trans unitsLe_antisymm)
open KeyedList
open Binary64 (double Exact)

/-- The map of the previous owners: one entry a camera, every id trimmed. -/
structure Previously (entries : List (Text × PreviousEntry)) : Prop where
  distinct : (entries.map Prod.fst).Nodup
  positive : ∀ entry ∈ entries, ∀ token, entry.2.token = some token → 0 < token

theorem previousEntry_keeps (byCamera : List (Text × PreviousEntry)) (cameraId nodeId : Text)
    (token : Option Rat) (fits : ∀ t, token = some t → 0 < t) (known : Previously byCamera) :
    Previously (previousEntry byCamera cameraId nodeId token) := by
  unfold previousEntry
  split
  · exact known
  · refine ⟨setField_nodup _ _ known.distinct, ?_⟩
    intro entry member
    rcases (mem_setField _ _ _).mp member with rfl | ⟨old, -⟩
    · exact fits
    · exact known.positive entry old

theorem positive_pos (n : Option Rat) (t : Rat) (kept : positive n = some t) : 0 < t := by
  unfold positive at kept
  split at kept
  · cases kept
  · split at kept
    · cases kept
      assumption
    · cases kept

theorem previousOfList_known (assignments : List StoredAssignment) :
    Previously (previousOfList assignments) := by
  have all : ∀ (rest : List StoredAssignment) (done : List (Text × PreviousEntry)),
      Previously done → Previously (rest.foldl (fun byCamera raw =>
        previousEntry byCamera raw.cameraId raw.nodeId (positive raw.token.toNumber)) done) := by
    intro rest
    induction rest with
    | nil => exact fun done known => known
    | cons raw rest ih =>
      exact fun done known => ih _ (previousEntry_keeps done _ _ _ (positive_pos _) known)
  exact all assignments [] ⟨nodup_nil, nofun⟩

/-- Raising goes above every token and never down. -/
theorem foldl_raiseToken (entries : List (Text × PreviousEntry)) (start : Rat) :
    start ≤ entries.foldl raiseToken start ∧ ∀ entry ∈ entries, ∀ token,
      entry.2.token = some token → token < entries.foldl raiseToken start := by
  induction entries generalizing start with
  | nil => exact ⟨le_refl _, nofun⟩
  | cons entry rest ih =>
    have raised : start ≤ raiseToken start entry ∧
        ∀ token, entry.2.token = some token → token < raiseToken start entry := by
      unfold raiseToken
      split
      · rename_i absent
        refine ⟨le_refl _, ?_⟩
        intro token present
        rw [absent] at present
        cases present
      · rename_i token present
        split
        · rename_i above
          refine ⟨above.trans (lt_add_one token).le, ?_⟩
          intro other same
          rw [present] at same
          cases same
          exact lt_add_one token
        · rename_i below
          refine ⟨le_refl _, ?_⟩
          intro other same
          rw [present] at same
          cases same
          exact not_le.mp below
    obtain ⟨grows, above⟩ := ih (raiseToken start entry)
    refine ⟨raised.1.trans grows, ?_⟩
    intro other member token present
    rcases mem_cons.mp member with rfl | later
    · exact (raised.2 token present).trans_le grows
    · exact above other later token present

theorem normalizePrevious_known (previous : Previous) :
    Previously (normalizePrevious previous).byCamera ∧
      ∀ entry ∈ (normalizePrevious previous).byCamera, ∀ token,
        entry.2.token = some token → token < (normalizePrevious previous).nextToken := by
  cases previous with
  | absent =>
    have empty : ∀ entry, entry ∉ (normalizePrevious .absent).byCamera := fun _ => not_mem_nil
    exact ⟨⟨nodup_nil, fun entry member => absurd member (empty entry)⟩,
      fun entry member => absurd member (empty entry)⟩
  | list assignments =>
    exact ⟨previousOfList_known assignments, (foldl_raiseToken _ _).2⟩
  | plan plan => exact ⟨previousOfList_known plan.assignments, (foldl_raiseToken _ _).2⟩
  | registry entries =>
    have all : ∀ (rest : List (Text × Text)) (done : List (Text × PreviousEntry)),
        Previously done → (∀ entry ∈ done, entry.2.token = none) →
        let byCamera := rest.foldl (fun byCamera raw => previousEntry byCamera raw.1 raw.2 none)
          done
        Previously byCamera ∧ ∀ entry ∈ byCamera, entry.2.token = none := by
      intro rest
      induction rest with
      | nil => exact fun done known blank => ⟨known, blank⟩
      | cons raw rest ih =>
        intro done known blank
        apply ih _ (previousEntry_keeps done raw.1 raw.2 none nofun known)
        intro entry member
        unfold previousEntry at member
        split at member
        · exact blank entry member
        · rcases (mem_setField _ _ _).mp member with rfl | ⟨old, -⟩
          · rfl
          · exact blank entry old
    obtain ⟨known, blank⟩ := all entries [] ⟨nodup_nil, nofun⟩ nofun
    refine ⟨known, ?_⟩
    intro entry member token present
    rw [blank entry member] at present
    cases present

/-- What the assignment of a record says, its token apart. -/
def Record.assigned (record : Record) : Option (Text × Text × Rat) :=
  record.nodeId.map fun nodeId => (record.id, nodeId, record.weight)

def Assignment.view (assignment : Assignment) : Text × Text × Rat :=
  (assignment.cameraId, assignment.nodeId, assignment.weight)

/-- The token of an assignment was kept from before. -/
def Kept (records : List Record) (assignment : Assignment) : Prop :=
  ∃ record ∈ records, record.id = assignment.cameraId ∧
    record.previousNodeId = some assignment.nodeId ∧ record.previousToken = some assignment.token

/-- The owner of an assignment had no token to keep. -/
def Renewed (records : List Record) (assignment : Assignment) : Prop :=
  ∃ record ∈ records, record.id = assignment.cameraId ∧
    (record.previousNodeId = some assignment.nodeId → record.previousToken = none)

/-- A number that counts. -/
def Whole (n : Rat) : Prop := ∃ k : ℕ, n = k

theorem Whole.next {n : Rat} (whole : Whole n) : Whole (n + 1) := by
  obtain ⟨k, rfl⟩ := whole
  exact ⟨k + 1, (Nat.cast_succ k).symm⟩

/-- The tokens of one planning: kept, or new, each new one above the ones before it. -/
structure Issued (records : List Record) (first : Rat) (assignments : List Assignment)
    (last : Rat) : Prop where
  grows : first ≤ last
  views : assignments.map Assignment.view = records.filterMap Record.assigned
  tokens : ∀ assignment ∈ assignments, Kept records assignment ∨
    Renewed records assignment ∧ first ≤ assignment.token ∧ assignment.token < last
  ordered : assignments.Pairwise fun earlier later => Kept records earlier ∨ Kept records later ∨
    earlier.token < later.token
  whole : Whole first → Whole last ∧
    ∀ assignment ∈ assignments, Kept records assignment ∨ Whole assignment.token

theorem Kept.mono {records more : List Record} (included : ∀ record ∈ records, record ∈ more)
    {assignment : Assignment} (kept : Kept records assignment) : Kept more assignment := by
  obtain ⟨record, member, named⟩ := kept
  exact ⟨record, included record member, named⟩

theorem Renewed.mono {records more : List Record} (included : ∀ record ∈ records, record ∈ more)
    {assignment : Assignment} (renewed : Renewed records assignment) : Renewed more assignment := by
  obtain ⟨record, member, named⟩ := renewed
  exact ⟨record, included record member, named⟩

theorem issueTokens_issued (leaseExpiresAt : Int) (records : List Record) (first : Rat) :
    Issued records first (issueTokens leaseExpiresAt first records).1
      (issueTokens leaseExpiresAt first records).2 := by
  induction records generalizing first with
  | nil => exact ⟨le_refl _, rfl, nofun, List.Pairwise.nil, fun whole => ⟨whole, nofun⟩⟩
  | cons record rest ih =>
    have tail : ∀ other ∈ rest, other ∈ record :: rest := fun other member =>
      mem_cons_of_mem _ member
    cases home : record.nodeId with
    | none =>
      have skip := ih first
      simp only [issueTokens, home]
      refine ⟨skip.grows, ?_, ?_, ?_, ?_⟩
      · rw [filterMap_cons_none (by rw [Record.assigned, home]; rfl)]
        exact skip.views
      · intro assignment member
        exact (skip.tokens assignment member).imp (Kept.mono tail)
          (And.imp_left (Renewed.mono tail))
      · exact skip.ordered.imp fun either =>
          either.imp (Kept.mono tail) (Or.imp_left (Kept.mono tail))
      · intro whole
        obtain ⟨last, tokens⟩ := skip.whole whole
        exact ⟨last, fun assignment member => (tokens assignment member).imp_left (Kept.mono tail)⟩
    | some nodeId =>
      have assigned : record.assigned = some (record.id, nodeId, record.weight) := by
        rw [Record.assigned, home]
        rfl
      -- a new token goes to this record, the later ones are above it
      have issue : (record.previousNodeId = some nodeId → record.previousToken = none) →
          Issued (record :: rest) first
          (⟨record.id, nodeId, record.weight, first, leaseExpiresAt⟩ ::
            (issueTokens leaseExpiresAt (first + 1) rest).1)
          (issueTokens leaseExpiresAt (first + 1) rest).2 := by
        intro unowned
        have later := ih (first + 1)
        have below : first < first + 1 := lt_add_one first
        refine ⟨below.le.trans later.grows, ?_, ?_, ?_, ?_⟩
        · rw [map_cons, filterMap_cons_some assigned, later.views]
          rfl
        · intro assignment member
          rcases mem_cons.mp member with rfl | inRest
          · exact Or.inr ⟨⟨record, mem_cons_self, rfl, unowned⟩, le_refl _,
              below.trans_le later.grows⟩
          · rcases later.tokens assignment inRest with kept | ⟨renewed, lower, upper⟩
            · exact Or.inl (kept.mono tail)
            · exact Or.inr ⟨renewed.mono tail, below.le.trans lower, upper⟩
        · refine List.Pairwise.cons ?_ (later.ordered.imp fun either =>
            either.imp (Kept.mono tail) (Or.imp_left (Kept.mono tail)))
          intro assignment inRest
          rcases later.tokens assignment inRest with kept | ⟨-, lower, -⟩
          · exact Or.inr (Or.inl (kept.mono tail))
          · exact Or.inr (Or.inr (below.trans_le lower))
        · intro whole
          obtain ⟨last, tokens⟩ := later.whole whole.next
          refine ⟨last, ?_⟩
          intro assignment member
          rcases mem_cons.mp member with rfl | inRest
          · exact Or.inr whole
          · exact (tokens assignment inRest).imp_left (Kept.mono tail)
      cases before : record.previousToken with
      | none =>
        simp only [issueTokens, home, before]
        exact issue fun _ => before
      | some token =>
        by_cases sameOwner : record.previousNodeId = some nodeId
        · have keep := ih first
          have kept : Kept (record :: rest)
              ⟨record.id, nodeId, record.weight, token, leaseExpiresAt⟩ :=
            ⟨record, mem_cons_self, rfl, sameOwner, before⟩
          simp only [issueTokens, home, before, if_pos sameOwner]
          refine ⟨keep.grows, ?_, ?_, ?_, ?_⟩
          · rw [map_cons, filterMap_cons_some assigned, keep.views]
            rfl
          · intro assignment member
            rcases mem_cons.mp member with rfl | inRest
            · exact Or.inl kept
            · exact (keep.tokens assignment inRest).imp (Kept.mono tail)
                (And.imp_left (Renewed.mono tail))
          · exact List.Pairwise.cons (fun _ _ => Or.inl kept) (keep.ordered.imp fun either =>
              either.imp (Kept.mono tail) (Or.imp_left (Kept.mono tail)))
          · intro whole
            obtain ⟨last, tokens⟩ := keep.whole whole
            refine ⟨last, ?_⟩
            intro assignment member
            rcases mem_cons.mp member with rfl | inRest
            · exact Or.inl kept
            · exact (tokens assignment inRest).imp_left (Kept.mono tail)
        · simp only [issueTokens, home, before, if_neg sameOwner]
          exact issue fun same => absurd same sameOwner

/-- What every plan has to be. The loads are sums of doubles, and tokens are counted as long as a
double can count. -/
structure Sane (options : Options) (nowMs : Rat) (plan : Plan) : Prop where
  once : ∀ cameraId, (∃ raw ∈ options.workloads, trim raw.id = cameraId ∧ cameraId ≠ []) →
    (plan.assignments.map Assignment.cameraId ++ plan.unassigned.map Unassigned.cameraId).count
      cameraId = 1
  nothingElse : ∀ cameraId,
    cameraId ∈ plan.assignments.map Assignment.cameraId ++ plan.unassigned.map Unassigned.cameraId →
    ∃ raw ∈ options.workloads, trim raw.id = cameraId ∧ cameraId ≠ []
  costs : ∀ assignment ∈ plan.assignments,
    ⟨assignment.cameraId, assignment.weight⟩ ∈ normalizeWorkloads options.workloads
  registered : ∀ node ∈ plan.nodes, Registered (resolveSchedulerConfig options.config)
    (normalizeNodeStates options.nodeStates) nowMs options.nodes node
  hosts : ∀ assignment ∈ plan.assignments,
    ∃ node ∈ plan.nodes, node.id = assignment.nodeId ∧ node.health ≠ .dead
  loads : Exact ((normalizeWorkloads options.workloads).map Workload.weight) →
    ∀ node ∈ plan.nodes, node.load = ((plan.assignments.filter fun assignment =>
      assignment.nodeId = node.id).map Assignment.weight).sum
  capacities : ∀ node ∈ plan.nodes, node.load ≤ node.capacity
  cameras : ∀ node ∈ plan.nodes, node.cameras = (plan.assignments.filter fun assignment =>
    assignment.nodeId = node.id).map Assignment.cameraId
  tokens : plan.nextToken < 2 ^ 53 →
    ∀ assignment ∈ plan.assignments, assignment.token < plan.nextToken

variable (records : List Record)

theorem assigned_or_unassigned : ((records.filterMap Record.assigned).map Prod.fst ++
      (records.filterMap unassignedOf).map Unassigned.cameraId).Perm (records.map Record.id) := by
  induction records with
  | nil => exact List.Perm.refl _
  | cons record rest ih =>
    cases home : record.nodeId with
    | some nodeId =>
      have assigned : record.assigned = some (record.id, nodeId, record.weight) := by
        rw [Record.assigned, home]
        rfl
      have housed : unassignedOf record = none := by rw [unassignedOf, home]
      rw [filterMap_cons_some assigned, filterMap_cons_none housed]
      exact ih.cons record.id
    | none =>
      have homeless : record.assigned = none := by rw [Record.assigned, home]; rfl
      obtain ⟨row, listed, named⟩ : ∃ row, unassignedOf record = some row ∧
          row.cameraId = record.id := by
        rw [unassignedOf, home]
        exact ⟨_, rfl, rfl⟩
      rw [filterMap_cons_none homeless, filterMap_cons_some listed, map_cons, named]
      exact perm_middle.trans (ih.cons record.id)

theorem assigned_shares (nodeId : Text) :
    (((records.filterMap Record.assigned).filter fun row => row.2.1 = nodeId).map
      fun row => row.2.2).sum = (records.map (share nodeId)).sum := by
  induction records with
  | nil => rfl
  | cons record rest ih =>
    rw [map_cons, sum_cons, ← ih]
    cases home : record.nodeId with
    | none =>
      have homeless : record.assigned = none := by rw [Record.assigned, home]; rfl
      have nothing : share nodeId record = 0 := by rw [share, home, if_neg (by simp)]
      rw [filterMap_cons_none homeless, nothing, zero_add]
    | some host =>
      have assigned : record.assigned = some (record.id, host, record.weight) := by
        rw [Record.assigned, home]
        rfl
      rw [filterMap_cons_some assigned]
      by_cases here : host = nodeId
      · have weighs : share nodeId record = record.weight := by
          rw [share, home, here, if_pos rfl]
        have kept : decide ((record.id, host, record.weight).2.1 = nodeId) = true :=
          decide_eq_true here
        rw [filter_cons, if_pos kept, map_cons, sum_cons, weighs]
      · have nothing : share nodeId record = 0 := by
          rw [share, home, if_neg fun same => here (Option.some.inj same)]
        have dropped : ¬ decide ((record.id, host, record.weight).2.1 = nodeId) = true :=
          fun kept => here (of_decide_eq_true kept)
        rw [filter_cons, if_neg dropped, nothing, zero_add]

theorem byId_perm : (byId records).Perm records :=
  perm_insertionSort _ _

theorem sorted_ids_eq (first second : List Text) (perm : first.Perm second)
    (left : first.Pairwise fun a b => unitsLe a b = true)
    (right : second.Pairwise fun a b => unitsLe a b = true) : first = second :=
  List.Perm.eq_of_pairwise (fun a b _ _ => unitsLe_antisymm a b) left right perm

theorem insertionSort_ids (ids : List Text) :
    (ids.insertionSort fun a b => unitsLe a b = true).Pairwise fun a b => unitsLe a b = true := by
  have total : Std.Total fun a b : Text => unitsLe a b = true := ⟨unitsLe_total⟩
  have transitive : IsTrans Text fun a b => unitsLe a b = true := ⟨unitsLe_trans⟩
  exact pairwise_insertionSort _ ids

theorem byId_sorted : ((byId records).map Record.id).Pairwise fun a b => unitsLe a b = true := by
  have total : Std.Total fun a b : Record => unitsLe a.id b.id = true :=
    ⟨fun a b => unitsLe_total a.id b.id⟩
  have transitive : IsTrans Record fun a b => unitsLe a.id b.id = true :=
    ⟨fun a b c => unitsLe_trans a.id b.id c.id⟩
  exact pairwise_map.mpr (pairwise_insertionSort _ records)

theorem assigned_ids :
    ((records.filterMap Record.assigned).map Prod.fst).Sublist (records.map Record.id) := by
  induction records with
  | nil => exact List.Sublist.refl _
  | cons record rest ih =>
    cases home : record.nodeId with
    | none =>
      have homeless : record.assigned = none := by rw [Record.assigned, home]; rfl
      rw [filterMap_cons_none homeless]
      exact ih.cons record.id
    | some host =>
      have assigned : record.assigned = some (record.id, host, record.weight) := by
        rw [Record.assigned, home]
        rfl
      rw [filterMap_cons_some assigned]
      exact ih.cons_cons record.id

theorem assigned_sublist (nodeId : Text) :
    (((records.filterMap Record.assigned).filter fun row => row.2.1 = nodeId).map Prod.fst).Sublist
      (records.map Record.id) :=
  (filter_sublist.map Prod.fst).trans (assigned_ids records)

theorem mem_assigned (cameraId nodeId : Text) :
    cameraId ∈ ((records.filterMap Record.assigned).filter fun row =>
        row.2.1 = nodeId).map Prod.fst ↔
      ∃ record ∈ records, record.id = cameraId ∧ record.nodeId = some nodeId := by
  constructor
  · intro listed
    obtain ⟨row, inRows, rfl⟩ := mem_map.mp listed
    obtain ⟨inAssigned, here⟩ := mem_filter.mp inRows
    obtain ⟨record, member, assigned⟩ := mem_filterMap.mp inAssigned
    obtain ⟨host, home, rfl⟩ := Option.map_eq_some_iff.mp assigned
    have named : host = nodeId := of_decide_eq_true here
    exact ⟨record, member, rfl, named ▸ home⟩
  · rintro ⟨record, member, rfl, home⟩
    apply mem_map.mpr
    refine ⟨(record.id, nodeId, record.weight), ?_, rfl⟩
    apply mem_filter.mpr
    refine ⟨mem_filterMap.mpr ⟨record, member, ?_⟩, decide_eq_true rfl⟩
    rw [Record.assigned, home]
    rfl

/-- `now` is missing, or it or the end of the lease is beyond the range of dates. -/
def Untimely (options : Options) : Prop :=
  ∀ nowMs, options.now = some nowMs → dateOf nowMs = none ∨
    leaseEnd (resolveSchedulerConfig options.config) nowMs = none

/-- What a plan is made of: a balanced fleet, and the tokens of its records. -/
structure Made (options : Options) (nowMs : Rat) (plan : Plan) (fleet : Fleet) : Prop where
  balanced : Balanced fleet
  nodesFixed : fleet.nodes.map Node.fixed = (buildNodes (resolveSchedulerConfig options.config)
    (normalizeNodeStates options.nodeStates) nowMs options.nodes).map Node.fixed
  recordsFixed : fleet.records.map Record.fixed =
    (orderWorkloads (normalizeWorkloads options.workloads)).map
      (Workload.fixed (normalizePrevious options.previous))
  nodes : plan.nodes = fleet.nodes.map fun node =>
    { node with cameras := node.cameras.insertionSort fun a b => unitsLe a b = true }
  issued : Issued (byId fleet.records) (max (normalizePrevious options.previous).nextToken 1)
    plan.assignments plan.nextToken
  unassigned : plan.unassigned = (byId fleet.records).filterMap unassignedOf
  revoked : plan.revoked = (byId fleet.records).filterMap revocationOf

/-- Planning succeeds at every date. -/
theorem planAssignments_made (options : Options) :
    (∃ nowMs plan fleet, options.now = some nowMs ∧ planAssignments options = .ok plan ∧
      Made options nowMs plan fleet) ∨
    (∃ refusal, planAssignments options = .error refusal) ∧ Untimely options := by
  cases now : options.now with
  | none =>
    right
    refine ⟨⟨.now, ?_⟩, ?_⟩
    · rw [planAssignments, now]
    · intro nowMs present
      rw [now] at present
      cases present
  | some nowMs =>
    cases lease : leaseEnd (resolveSchedulerConfig options.config) nowMs with
    | none =>
      right
      refine ⟨⟨.date, ?_⟩, ?_⟩
      · simp only [planAssignments, now, lease]
      · intro other present
        rw [now] at present
        cases present
        exact Or.inr lease
    | some leaseExpiresAt =>
      cases date : dateOf nowMs with
      | none =>
        right
        refine ⟨⟨.date, ?_⟩, ?_⟩
        · simp only [planAssignments, now, lease, date]
        · intro other present
          rw [now] at present
          cases present
          exact Or.inl date
      | some generatedAt =>
        left
        obtain ⟨balanced, nodesFixed, recordsFixed⟩ := assignNodes_balanced options.config
          (normalizeNodeStates options.nodeStates) nowMs options.nodes
          (normalizePrevious options.previous) options.workloads
        obtain ⟨plan, planned⟩ : ∃ plan, planAssignments options = .ok plan := by
          simp only [planAssignments, now, lease, date]
          exact ⟨_, rfl⟩
        have made : Made options nowMs plan (planFleet options nowMs) := by
          simp only [planAssignments, now, lease, date] at planned
          cases planned
          exact ⟨balanced, nodesFixed, recordsFixed, rfl,
            issueTokens_issued leaseExpiresAt _ _, rfl, rfl⟩
        exact ⟨nowMs, plan, _, rfl, planned, made⟩

variable {options : Options} {fleet : Fleet}

variable {nowMs : Rat} {plan : Plan}

section

variable (made : Made options nowMs plan fleet)

include made

theorem Made.previous (record : Record) (member : record ∈ byId fleet.records) :
    (field (normalizePrevious options.previous).byCamera record.id).map PreviousEntry.nodeId =
        record.previousNodeId ∧
      (field (normalizePrevious options.previous).byCamera record.id).bind PreviousEntry.token =
        record.previousToken := by
  have inFleet : record.fixed ∈ fleet.records.map Record.fixed :=
    mem_map_of_mem ((byId_perm _).mem_iff.mp member)
  rw [made.recordsFixed] at inFleet
  obtain ⟨workload, -, fixed⟩ := mem_map.mp inFleet
  have sameId : workload.id = record.id := congrArg Prod.fst fixed
  rw [← sameId]
  exact ⟨congrArg (fun fixed => fixed.2.2.1) fixed, congrArg (fun fixed => fixed.2.2.2) fixed⟩

theorem Made.kept (assignment : Assignment) (kept : Kept (byId fleet.records) assignment) :
    ∃ entry, (assignment.cameraId, entry) ∈ (normalizePrevious options.previous).byCamera ∧
      entry.nodeId = assignment.nodeId ∧ entry.token = some assignment.token := by
  obtain ⟨record, member, named, owner, token⟩ := kept
  obtain ⟨sameNode, sameToken⟩ := made.previous record member
  rw [owner] at sameNode
  obtain ⟨entry, found, sameOwner⟩ := Option.map_eq_some_iff.mp sameNode
  rw [found, token] at sameToken
  have distinct := (normalizePrevious_known options.previous).1.distinct
  refine ⟨entry, ?_, sameOwner, sameToken⟩
  rw [← named]
  exact (field_eq_some _ distinct _ _).mp found

theorem Made.ids :
    (plan.assignments.map Assignment.cameraId ++ plan.unassigned.map Unassigned.cameraId).Perm
      ((normalizeWorkloads options.workloads).map Workload.id) := by
  have views : plan.assignments.map Assignment.cameraId =
      ((byId fleet.records).filterMap Record.assigned).map Prod.fst := by
    rw [← made.issued.views, map_map]
    rfl
  have fixed := congrArg (List.map Prod.fst) made.recordsFixed
  rw [map_map, map_map] at fixed
  rw [views, made.unassigned]
  calc _ = _ := rfl
    List.Perm _ ((byId fleet.records).map Record.id) := assigned_or_unassigned _
    List.Perm _ (fleet.records.map Record.id) := (byId_perm _).map _
    _ = (orderWorkloads (normalizeWorkloads options.workloads)).map Workload.id := fixed
    List.Perm _ ((normalizeWorkloads options.workloads).map Workload.id) :=
      (orderWorkloads_perm _).map _

theorem Made.assignments_at {β : Type} (nodeId : Text) (f : Text × Text × Rat → β) :
    (plan.assignments.filter fun assignment => assignment.nodeId = nodeId).map
        (fun assignment => f assignment.view) =
      (((byId fleet.records).filterMap Record.assigned).filter fun row =>
        row.2.1 = nodeId).map f := by
  rw [← made.issued.views, filter_map, map_map]
  rfl

theorem Made.weights_perm : (fleet.records.map Record.weight).Perm
    ((normalizeWorkloads options.workloads).map Workload.weight) := by
  have fixed := congrArg (List.map fun fixed => fixed.2.1) made.recordsFixed
  rw [map_map, map_map] at fixed
  calc _ = (orderWorkloads (normalizeWorkloads options.workloads)).map Workload.weight := fixed
    List.Perm _ ((normalizeWorkloads options.workloads).map Workload.weight) :=
      (orderWorkloads_perm _).map _

theorem Made.sane : Sane options nowMs plan := by
  obtain ⟨distinct, -, requested⟩ := normalizeWorkloads_ids options.workloads
  have balanced := made.balanced
  have perm := byId_perm fleet.records
  have hosts : ∀ node ∈ plan.nodes, ∃ host ∈ fleet.nodes, host.fixed = node.fixed ∧
      host.load = node.load ∧ node.cameras = host.cameras.insertionSort fun a b =>
        unitsLe a b = true := by
    intro node member
    rw [made.nodes] at member
    obtain ⟨host, inHosts, rfl⟩ := mem_map.mp member
    exact ⟨host, inHosts, rfl, rfl, rfl⟩
  refine ⟨?_, ?_, ?_, ?_, ?_, ?_, ?_, ?_, ?_⟩
  · intro cameraId asked
    rw [made.ids.count_eq]
    exact count_eq_one_of_mem distinct ((requested cameraId).mpr asked)
  · intro cameraId listed
    exact (requested cameraId).mp (made.ids.mem_iff.mp listed)
  · intro assignment member
    have listed : assignment.view ∈ plan.assignments.map Assignment.view :=
      mem_map_of_mem member
    rw [made.issued.views] at listed
    obtain ⟨record, inRecords, assigned⟩ := mem_filterMap.mp listed
    obtain ⟨host, -, view⟩ := Option.map_eq_some_iff.mp assigned
    have inFixed : record.fixed ∈ fleet.records.map Record.fixed :=
      mem_map_of_mem (perm.mem_iff.mp inRecords)
    rw [made.recordsFixed] at inFixed
    obtain ⟨workload, inWorkloads, fixed⟩ := mem_map.mp inFixed
    have id : workload.id = assignment.cameraId :=
      (congrArg Prod.fst fixed).trans (congrArg Prod.fst view)
    have weight : workload.weight = assignment.weight :=
      (congrArg (fun fixed => fixed.2.1) fixed).trans (congrArg (fun view => view.2.2) view)
    rw [← id, ← weight]
    exact (orderWorkloads_perm _).mem_iff.mp inWorkloads
  · intro node member
    obtain ⟨host, inHosts, fixed, -⟩ := hosts node member
    have inFixed : node.fixed ∈ fleet.nodes.map Node.fixed := by
      rw [← fixed]
      exact mem_map_of_mem inHosts
    rw [made.nodesFixed] at inFixed
    obtain ⟨built, inBuilt, same⟩ := mem_map.mp inFixed
    obtain ⟨⟨named, raw, inRegistry, source⟩, -⟩ := (buildNodes_registered _ _ _ _).2 built inBuilt
    have sameId : built.id = node.id := congrArg Prod.fst same
    exact ⟨sameId ▸ named, raw, inRegistry, same.symm.trans source⟩
  · intro assignment member
    have listed : assignment.cameraId ∈ ((plan.assignments.filter fun other =>
        other.nodeId = assignment.nodeId).map fun other => other.view.1) :=
      mem_map.mpr ⟨assignment, mem_filter.mpr ⟨member, decide_eq_true rfl⟩, rfl⟩
    rw [made.assignments_at assignment.nodeId Prod.fst] at listed
    obtain ⟨record, inRecords, -, home⟩ := (mem_assigned _ _ _).mp listed
    obtain ⟨host, inHosts, named, alive⟩ :=
      balanced.homes record (perm.mem_iff.mp inRecords) _ home
    have planned := mem_map_of_mem (f := fun node : Node =>
      { node with cameras := node.cameras.insertionSort fun a b => unitsLe a b = true }) inHosts
    rw [← made.nodes] at planned
    exact ⟨_, planned, named, alive⟩
  · intro exact_ node member
    obtain ⟨host, inHosts, fixed, load, -⟩ := hosts node member
    have sameId : host.id = node.id := congrArg Prod.fst fixed
    have sums := (perm.map (share node.id)).sum_eq
    rw [← load, balanced.loads (exact_.subperm made.weights_perm.subperm) host inHosts, sameId,
      ← sums, ← assigned_shares,
      ← made.assignments_at node.id fun row => row.2.2]
    rfl
  · intro node member
    obtain ⟨host, inHosts, fixed, load, -⟩ := hosts node member
    have capacity : host.capacity = node.capacity := congrArg (fun fixed => fixed.2.2.1) fixed
    rw [← load, ← capacity]
    exact balanced.capacities host inHosts
  · intro node member
    obtain ⟨host, inHosts, fixed, -, cameras⟩ := hosts node member
    have sameId : host.id = node.id := congrArg Prod.fst fixed
    have listed := made.assignments_at node.id Prod.fst
    have sorted : (((byId fleet.records).filterMap Record.assigned).filter fun row =>
        row.2.1 = node.id).map Prod.fst |>.Pairwise fun a b => unitsLe a b = true :=
      (byId_sorted fleet.records).sublist (assigned_sublist _ _)
    have recordIds : ((byId fleet.records).map Record.id).Nodup :=
      (perm.map Record.id).nodup_iff.mpr balanced.recordIds
    have same : host.cameras.Perm (((byId fleet.records).filterMap Record.assigned).filter
        (fun row => row.2.1 = node.id) |>.map Prod.fst) := by
      apply (perm_ext_iff_of_nodup (balanced.distinctCameras host inHosts)
        (recordIds.sublist (assigned_sublist _ _))).mpr
      intro cameraId
      rw [balanced.cameras host inHosts, mem_assigned, sameId]
      exact exists_congr fun record => and_congr_left' perm.mem_iff.symm
    rw [cameras]
    exact (sorted_ids_eq _ _ ((perm_insertionSort _ _).trans same) (insertionSort_ids _)
      sorted).trans listed.symm
  · intro _ assignment member
    rcases made.issued.tokens assignment member with kept | ⟨-, -, below⟩
    · obtain ⟨entry, known, -, token⟩ := made.kept assignment kept
      have bounded := (normalizePrevious_known options.previous).2 _ known _ token
      exact (bounded.trans_le (le_max_left _ _)).trans_le made.issued.grows
    · exact below

end

/-- Six tenths in three parts next to six tenths of capacity, and a token that no double follows. -/
def sixTenths : Options where
  installationId := none
  config := ⟨none, none, none, none⟩
  now := some 0
  nodeStates := []
  nodes := [⟨['a'], .number (6 / 10)⟩, ⟨['b'], .number 1⟩]
  workloads := [⟨['0'], none⟩, ⟨['1'], some (1 / 10)⟩, ⟨['2'], some (2 / 10)⟩,
    ⟨['3'], some (3 / 10)⟩]
  previous := .list [⟨['0'], ['b'], .number (2 ^ 53), none⟩]

end DracVms.Scheduler
