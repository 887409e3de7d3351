import DracVms.Scheduler.Stickiness

namespace DracVms.Scheduler

open List

open Json (Text field field_setField foldl_setField_unless field_perm)
open JsString (trim trim_trim unitsLe unitsLe_total unitsLe_trans unitsLe_antisymm)
open KeyedList

theorem normalizeWorkloads_perm {workloads other : List RawWorkload} (perm : workloads.Perm other)
    (distinct : (workloads.map fun raw => trim raw.id).Nodup) :
    (normalizeWorkloads workloads).Perm (normalizeWorkloads other) := by
  have listed : ∀ (list : List RawWorkload), (list.map fun raw => trim raw.id).Nodup →
      normalizeWorkloads list = ((list.filter fun raw => ¬trim raw.id = []).map fun raw =>
        (trim raw.id, weightOf raw.weight)).map fun entry => ⟨entry.1, entry.2⟩ := by
    intro list distinct
    exact congrArg _ (foldl_setField_unless (fun raw : RawWorkload => trim raw.id = [])
      (fun raw => (trim raw.id, weightOf raw.weight)) list distinct)
  rw [listed workloads distinct, listed other ((perm.map _).nodup_iff.mp distinct)]
  exact ((perm.filter _).map _).map _

theorem orderWorkloads_eq {workloads other : List Workload} (perm : workloads.Perm other) :
    orderWorkloads workloads = orderWorkloads other := by
  have total : Std.Total workloadBefore := by
    refine ⟨fun a b => ?_⟩
    rcases lt_trichotomy b.weight a.weight with more | same | less
    · exact Or.inl (Or.inl more)
    · rcases unitsLe_total a.id b.id with before | after
      · exact Or.inl (Or.inr ⟨same.symm, before⟩)
      · exact Or.inr (Or.inr ⟨same, after⟩)
    · exact Or.inr (Or.inl less)
  have transitive : IsTrans Workload workloadBefore := by
    refine ⟨fun a b c first second => ?_⟩
    rcases first with more | ⟨same, before⟩
    · rcases second with more' | ⟨same', -⟩
      · exact Or.inl (more'.trans more)
      · exact Or.inl (same' ▸ more)
    · rcases second with more' | ⟨same', before'⟩
      · exact Or.inl (same ▸ more')
      · exact Or.inr ⟨same.trans same', unitsLe_trans _ _ _ before before'⟩
  have sorted : ∀ list, (orderWorkloads list).Pairwise workloadBefore := fun list =>
    pairwise_insertionSort _ list
  have perm' := (orderWorkloads_perm workloads).trans (perm.trans (orderWorkloads_perm other).symm)
  refine perm'.eq_of_pairwise ?_ (sorted workloads) (sorted other)
  rintro ⟨id, weight⟩ ⟨id', weight'⟩ - - (more | ⟨same, before⟩) (less | ⟨same', after⟩)
  · exact absurd more (lt_asymm less)
  · exact absurd more (not_lt.mpr (le_of_eq same'.symm))
  · exact absurd less (not_lt.mpr (le_of_eq same.symm))
  · have sameId := unitsLe_antisymm id id' before after
    rw [sameId, show weight = weight' from same]

/-- The assignment names a camera and a node. -/
def StoredAssignment.named (raw : StoredAssignment) : Bool :=
  ¬(trim raw.cameraId = [] ∨ trim raw.nodeId = [])

def StoredAssignment.trimmed (raw : StoredAssignment) : Text × PreviousEntry :=
  (trim raw.cameraId, ⟨trim raw.nodeId, positive raw.token.toNumber⟩)

variable (assignments : List StoredAssignment)

theorem previousOfList_filter (distinct : (assignments.map fun raw => trim raw.cameraId).Nodup) :
    previousOfList assignments =
      (assignments.filter StoredAssignment.named).map StoredAssignment.trimmed :=
  foldl_setField_unless
    (fun raw : StoredAssignment => trim raw.cameraId = [] ∨ trim raw.nodeId = [])
    StoredAssignment.trimmed assignments distinct

theorem buildNodes_perm (config : Config) (states : List (Text × NodeState)) (nowMs : Rat)
    {nodes other : List RawNode} (perm : nodes.Perm other)
    (distinct : (nodes.map fun raw => trim raw.id).Nodup) :
    buildNodes config states nowMs nodes = buildNodes config states nowMs other := by
  have total : Std.Total fun a b : ComputeNode => unitsLe a.id b.id = true :=
    ⟨fun a b => unitsLe_total a.id b.id⟩
  have transitive : IsTrans ComputeNode fun a b => unitsLe a.id b.id = true :=
    ⟨fun a b c => unitsLe_trans a.id b.id c.id⟩
  have once : ((normalizeComputeNodes nodes).map ComputeNode.id).Nodup := by
    rw [normalizeComputeNodes, map_map]
    exact distinct
  have perm' : (normalizeComputeNodes nodes).Perm (normalizeComputeNodes other) := perm.map _
  have sorted : (normalizeComputeNodes nodes).insertionSort (fun a b => unitsLe a.id b.id = true) =
      (normalizeComputeNodes other).insertionSort fun a b => unitsLe a.id b.id = true := by
    have sorts := perm_insertionSort fun a b : ComputeNode => unitsLe a.id b.id = true
    have same := ((sorts (normalizeComputeNodes nodes)).trans perm').trans (sorts _).symm
    refine same.eq_of_pairwise ?_ (pairwise_insertionSort _ _) (pairwise_insertionSort _ _)
    intro a b inNodes inOther before after
    have first := (sorts _).mem_iff.mp inNodes
    have second := perm'.mem_iff.mpr ((sorts _).mem_iff.mp inOther)
    exact eq_of_key once first second (unitsLe_antisymm a.id b.id before after)
  rw [buildNodes, buildNodes, sorted]

/-- The same previous owners, in another order. -/
inductive Previous.Rearranged : Previous → Previous → Prop where
  | absent : Rearranged .absent .absent
  | list (assignments other : List StoredAssignment) (perm : assignments.Perm other) :
      Rearranged (.list assignments) (.list other)
  | plan (saved : StoredPlan) (other : List StoredAssignment)
      (perm : saved.assignments.Perm other) :
      Rearranged (.plan saved) (.plan { saved with assignments := other })
  | registry (entries other : List (Text × Text)) (perm : entries.Perm other) :
      Rearranged (.registry entries) (.registry other)

/-- The cameras that a previous plan names. -/
def Previous.cameras : Previous → List Text
  | .absent => []
  | .list assignments => assignments.map fun raw => trim raw.cameraId
  | .plan saved => saved.assignments.map fun raw => trim raw.cameraId
  | .registry entries => entries.map fun raw => trim raw.1

/-- The token that the next one is raised from. -/
def Previous.start : Previous → Rat
  | .plan saved => (positive saved.nextToken).getD 0
  | _ => 0

def tokensOf (entries : List (Text × PreviousEntry)) : List Rat :=
  entries.filterMap fun entry => entry.2.token

/-- A token that counts is the greatest, or another one is greater by one at least. -/
def Spaced (start : Rat) (tokens : List Rat) : Prop :=
  ∀ token ∈ tokens, start ≤ token →
    (∀ other ∈ tokens, other ≤ token) ∨ ∃ other ∈ tokens, token + 1 ≤ other

theorem registry_filter (entries : List (Text × Text))
    (distinct : (entries.map fun raw => trim raw.1).Nodup) :
    (normalizePrevious (.registry entries)).byCamera =
      (entries.filter fun raw => ¬(trim raw.1 = [] ∨ trim raw.2 = [])).map fun raw =>
        (trim raw.1, ⟨trim raw.2, none⟩) :=
  foldl_setField_unless (fun raw : Text × Text => trim raw.1 = [] ∨ trim raw.2 = [])
    (fun raw => (trim raw.1, PreviousEntry.mk (trim raw.2) none)) entries distinct

theorem previousOfList_perm {assignments other : List StoredAssignment}
    (perm : assignments.Perm other)
    (distinct : (assignments.map fun raw => trim raw.cameraId).Nodup) :
    (previousOfList assignments).Perm (previousOfList other) := by
  rw [previousOfList_filter assignments distinct,
    previousOfList_filter other ((perm.map _).nodup_iff.mp distinct)]
  exact (perm.filter _).map _

theorem Previous.Rearranged.byCamera {previous other : Previous}
    (rearranged : previous.Rearranged other) (distinct : previous.cameras.Nodup) :
    (normalizePrevious previous).byCamera.Perm (normalizePrevious other).byCamera := by
  cases rearranged with
  | absent => exact List.Perm.refl _
  | list assignments other perm | plan saved other perm => exact previousOfList_perm perm distinct
  | registry entries other perm =>
    rw [registry_filter entries distinct,
      registry_filter other ((perm.map _).nodup_iff.mp distinct)]
    exact (perm.filter _).map _

theorem foldl_raiseToken_cases (entries : List (Text × PreviousEntry)) (start : Rat) :
    entries.foldl raiseToken start = start ∨ ∃ token ∈ tokensOf entries,
      start ≤ token ∧ entries.foldl raiseToken start = token + 1 := by
  induction entries generalizing start with
  | nil => exact Or.inl rfl
  | cons entry rest ih =>
    rw [foldl_cons]
    cases given : entry.2.token with
    | none =>
      have same : raiseToken start entry = start := by rw [raiseToken, given]
      have others : tokensOf (entry :: rest) = tokensOf rest := by simp [tokensOf, given]
      rw [same, others]
      exact ih start
    | some token =>
      have others : tokensOf (entry :: rest) = token :: tokensOf rest := by
        simp [tokensOf, given]
      rw [others]
      by_cases counts : start ≤ token
      · have raised : raiseToken start entry = token + 1 := by
          rw [raiseToken, given]
          exact if_pos counts
        rw [raised]
        right
        rcases ih (token + 1) with stays | ⟨other, later, above, next⟩
        · exact ⟨token, mem_cons_self, counts, stays⟩
        · exact ⟨other, mem_cons_of_mem _ later, by linarith, next⟩
      · have same : raiseToken start entry = start := by
          rw [raiseToken, given]
          exact if_neg counts
        rw [same]
        rcases ih start with stays | ⟨other, later, above, next⟩
        · exact Or.inl stays
        · exact Or.inr ⟨other, mem_cons_of_mem _ later, above, next⟩

theorem foldl_raiseToken_perm {entries other : List (Text × PreviousEntry)} (start : Rat)
    (perm : entries.Perm other) (spaced : Spaced start (tokensOf entries)) :
    other.foldl raiseToken start = entries.foldl raiseToken start := by
  have above : ∀ (list : List (Text × PreviousEntry)),
      ∀ token ∈ tokensOf list, token < list.foldl raiseToken start := by
    intro list token listed
    obtain ⟨entry, member, given⟩ := mem_filterMap.mp listed
    exact (foldl_raiseToken list start).2 entry member token given
  -- The last token that was counted can only be the greatest one.
  have greatest : ∀ (list : List (Text × PreviousEntry)), list.Perm entries →
      list.foldl raiseToken start = start ∨ ∃ token ∈ tokensOf entries,
        start ≤ token ∧ (∀ other ∈ tokensOf entries, other ≤ token) ∧
        list.foldl raiseToken start = token + 1 := by
    intro list same
    have listed := same.filterMap fun entry => entry.2.token
    rcases foldl_raiseToken_cases list start with stays | ⟨token, member, counts, next⟩
    · exact Or.inl stays
    · right
      have inTokens := listed.mem_iff.mp member
      rcases spaced token inTokens counts with most | ⟨other, inOther, exceeds⟩
      · exact ⟨token, inTokens, counts, most, next⟩
      · have below := above list other (listed.mem_iff.mpr inOther)
        rw [next] at below
        exact absurd exceeds (not_le.mpr below)
  -- A token that counts for one order is not below the start, so it counts for the other.
  have agree : ∀ first second : List (Text × PreviousEntry), first.Perm entries →
      second.Perm entries → first.foldl raiseToken start ≤ second.foldl raiseToken start := by
    intro first second one two
    rcases greatest first one with stays | ⟨token, inTokens, counts, -, next⟩
    · rw [stays]
      exact (foldl_raiseToken second start).1
    · have below := above second token ((two.filterMap _).mem_iff.mpr inTokens)
      rcases greatest second two with stays | ⟨most, inMost, -, greatest, next'⟩
      · rw [stays] at below
        exact absurd counts (not_le.mpr below)
      · have least := greatest token inTokens
        linarith
  exact le_antisymm (agree other entries perm.symm (List.Perm.refl _))
    (agree entries other (List.Perm.refl _) perm.symm)

theorem foldl_raiseToken_first (entry : Text × PreviousEntry)
    (rest : List (Text × PreviousEntry)) (start token : Rat) (given : entry.2.token = some token)
    (counts : start ≤ token) : (entry :: rest).foldl raiseToken start =
      rest.foldl raiseToken (token + 1) := by
  have raised : raiseToken start entry = token + 1 := by
    rw [raiseToken, given]
    exact if_pos counts
  rw [foldl_cons, raised]

theorem unspaced_orders (start : Rat)
    (distinct : (assignments.map fun raw => trim raw.cameraId).Nodup)
    (unspaced : ¬Spaced start (tokensOf (previousOfList assignments))) :
    ∃ first second : List StoredAssignment, assignments.Perm first ∧ assignments.Perm second ∧
      1 < (previousOfList first).foldl raiseToken start ∧
      (previousOfList first).foldl raiseToken start <
        (previousOfList second).foldl raiseToken start := by
  simp only [Spaced, not_forall, not_or, not_exists, not_and, not_le] at unspaced
  obtain ⟨token, inTokens, counts, ⟨other, inOther, greater⟩, close⟩ := unspaced
  have ahead : ∀ t ∈ tokensOf (previousOfList assignments), start ≤ t →
      ∃ order, assignments.Perm order ∧ ∃ rest, (∀ u ∈ tokensOf rest,
          u ∈ tokensOf (previousOfList assignments)) ∧
        (previousOfList order).foldl raiseToken start = rest.foldl raiseToken (t + 1) := by
    intro t listed counts
    obtain ⟨entry, inEntries, given⟩ := mem_filterMap.mp listed
    rw [previousOfList_filter assignments distinct] at inEntries
    obtain ⟨raw, inFiltered, rfl⟩ := mem_map.mp inEntries
    obtain ⟨member, solid⟩ := mem_filter.mp inFiltered
    obtain ⟨before, after, rfl⟩ := append_of_mem member
    have perm : (before ++ raw :: after).Perm (raw :: (before ++ after)) := perm_middle
    have same := previousOfList_perm perm distinct
    have distinct' := (perm.map fun raw => trim raw.cameraId).nodup_iff.mp distinct
    refine ⟨raw :: (before ++ after), perm,
      ((before ++ after).filter StoredAssignment.named).map StoredAssignment.trimmed, ?_, ?_⟩
    · intro u inRest
      apply (same.filterMap _).mem_iff.mpr
      rw [previousOfList_filter _ distinct', filter_cons_of_pos solid, map_cons]
      obtain ⟨entry, inEntries, given⟩ := mem_filterMap.mp inRest
      exact mem_filterMap.mpr ⟨entry, mem_cons_of_mem _ inEntries, given⟩
    · rw [previousOfList_filter _ distinct', filter_cons_of_pos solid, map_cons]
      exact foldl_raiseToken_first _ _ start t given counts
  obtain ⟨first, perm, rest, among, next⟩ := ahead token inTokens counts
  obtain ⟨second, perm', rest', -, next'⟩ := ahead other inOther (counts.trans greater.le)
  have stays : rest.foldl raiseToken (token + 1) = token + 1 := by
    rcases foldl_raiseToken_cases rest (token + 1) with stays | ⟨u, inRest, exceeds, -⟩
    · exact stays
    · exact absurd (close u (among u inRest)) (not_lt.mpr exceeds)
  refine ⟨first, second, perm, perm', ?_, ?_⟩
  · obtain ⟨entry, member, given⟩ := mem_filterMap.mp inTokens
    have above := (previousOfList_known assignments).positive entry member token given
    linarith
  · have raised := (foldl_raiseToken rest' (other + 1)).1
    linarith

/-- The same request, its nodes, workloads and previous owners in another order. -/
structure Options.Rearranged (options other : Options) : Prop where
  nodes : options.nodes.Perm other.nodes
  workloads : options.workloads.Perm other.workloads
  previous : options.previous.Rearranged other.previous
  rest : other = { options with
    nodes := other.nodes, workloads := other.workloads, previous := other.previous }

structure UniqueIds (options : Options) : Prop where
  nodes : (options.nodes.map fun raw => trim raw.id).Nodup
  workloads : (options.workloads.map fun raw => trim raw.id).Nodup
  previous : options.previous.cameras.Nodup

theorem retain_congr {previous other : PreviousState}
    (same : ∀ cameraId, field previous.byCamera cameraId = field other.byCamera cameraId) :
    retain previous = retain other := by
  funext so workload
  rw [retain, retain, same]

section Rearranged

variable {options other : Options}

/-- The order of the arrivals changes nothing in the three phases. -/
theorem Options.Rearranged.fleet (rearranged : options.Rearranged other)
    (unique : UniqueIds options) (nowMs : Rat) :
    planFleet other nowMs = planFleet options nowMs := by
  obtain ⟨nodes, workloads, previous, rest⟩ := rearranged
  have owners := previous.byCamera unique.previous
  have kept : retain (normalizePrevious other.previous) =
      retain (normalizePrevious options.previous) :=
    retain_congr fun cameraId => (field_perm owners
      (normalizePrevious_known options.previous).1.distinct cameraId).symm
  have ordered := orderWorkloads_eq (normalizeWorkloads_perm workloads unique.workloads)
  rw [rest]
  unfold planFleet assignNodes
  dsimp only
  rw [kept, ← ordered, ← buildNodes_perm _ _ nowMs nodes unique.nodes]

theorem Previous.Rearranged.epoch {previous other : Previous}
    (rearranged : previous.Rearranged other) :
    (normalizePrevious other).epoch = (normalizePrevious previous).epoch := by
  cases rearranged <;> rfl

theorem Options.Rearranged.planned (rearranged : options.Rearranged other)
    (unique : UniqueIds options)
    (next : (normalizePrevious other.previous).nextToken =
      (normalizePrevious options.previous).nextToken) :
    planAssignments other = planAssignments options := by
  have fleet := rearranged.fleet unique
  have epoch := rearranged.previous.epoch
  have rest := rearranged.rest
  unfold planAssignments
  simp only [fleet, epoch, next]
  rw [rest]

end Rearranged

theorem issueTokens_count (records : List Record) : ∃ count : Rat, ∀ leaseExpiresAt first,
    (issueTokens leaseExpiresAt first records).2 = first + count := by
  induction records with
  | nil => exact ⟨0, fun _ first => (add_zero first).symm⟩
  | cons record rest ih =>
    obtain ⟨count, counted⟩ := ih
    have issued : ∀ leaseExpiresAt (first : Rat),
        (issueTokens leaseExpiresAt (first + 1) rest).2 = first + (1 + count) := by
      intro leaseExpiresAt first
      rw [counted, add_assoc]
    cases home : record.nodeId with
    | none =>
      refine ⟨count, fun leaseExpiresAt first => ?_⟩
      simp only [issueTokens, home]
      exact counted leaseExpiresAt first
    | some nodeId =>
      cases before : record.previousToken with
      | none =>
        refine ⟨1 + count, fun leaseExpiresAt first => ?_⟩
        simp only [issueTokens, home, before]
        exact issued leaseExpiresAt first
      | some token =>
        by_cases same : record.previousNodeId = some nodeId
        · refine ⟨count, fun leaseExpiresAt first => ?_⟩
          simp only [issueTokens, home, before, if_pos same]
          exact counted leaseExpiresAt first
        · refine ⟨1 + count, fun leaseExpiresAt first => ?_⟩
          simp only [issueTokens, home, before, if_neg same]
          exact issued leaseExpiresAt first

/-- What a plan says: who records what with which token, who records nothing, what ended. -/
def Plan.outcome (plan : Plan) :
    List Assignment × Rat × List Unassigned × List Revocation :=
  (plan.assignments, plan.nextToken, plan.unassigned, plan.revoked)

def PlansAlike (options : Options) : Prop :=
  ∀ other, options.Rearranged other →
    (planAssignments other).map Plan.outcome = (planAssignments options).map Plan.outcome

theorem Previous.Rearranged.nextToken {previous other : Previous}
    (rearranged : previous.Rearranged other) (distinct : previous.cameras.Nodup)
    (spaced : Spaced previous.start (tokensOf (normalizePrevious previous).byCamera)) :
    (normalizePrevious other).nextToken = (normalizePrevious previous).nextToken := by
  have owners := rearranged.byCamera distinct
  have same := foldl_raiseToken_perm _ owners spaced
  cases rearranged with
  | absent => rfl
  | list assignments other perm | plan saved other perm => exact same
  | registry entries other perm => rfl

theorem unspaced_previous (previous : Previous) (distinct : previous.cameras.Nodup)
    (unspaced : ¬Spaced previous.start (tokensOf (normalizePrevious previous).byCamera)) :
    ∃ first second, previous.Rearranged first ∧ previous.Rearranged second ∧
      1 < (normalizePrevious first).nextToken ∧
      (normalizePrevious first).nextToken < (normalizePrevious second).nextToken := by
  cases previous with
  | absent => exact absurd (fun token listed => absurd listed not_mem_nil) unspaced
  | list assignments =>
    obtain ⟨first, second, perm, perm', above, apart⟩ :=
      unspaced_orders assignments 0 distinct unspaced
    exact ⟨.list first, .list second, .list _ _ perm, .list _ _ perm', above, apart⟩
  | plan saved =>
    obtain ⟨first, second, perm, perm', above, apart⟩ :=
      unspaced_orders saved.assignments _ distinct unspaced
    exact ⟨.plan { saved with assignments := first }, .plan { saved with assignments := second },
      .plan _ _ perm, .plan _ _ perm', above, apart⟩
  | registry entries =>
    refine absurd ?_ unspaced
    intro token listed
    obtain ⟨entry, inEntries, given⟩ := mem_filterMap.mp listed
    rw [registry_filter entries distinct] at inEntries
    obtain ⟨raw, -, rfl⟩ := mem_map.mp inEntries
    cases given

theorem untimely_refused (options : Options) (untimely : Untimely options) :
    planAssignments options = .error (if options.now = none then .now else .date) := by
  cases now : options.now with
  | none => rw [planAssignments, now, if_pos rfl]
  | some nowMs =>
    rw [planAssignments, now, if_neg (by simp)]
    dsimp only
    rcases untimely nowMs now with missing | missing
    · rw [missing]
      split
      · rename_i absent
        cases absent
      · rfl
    · rw [missing]

theorem Options.Rearranged.untimely {options other : Options}
    (rearranged : options.Rearranged other) : Untimely other ↔ Untimely options := by
  rw [rearranged.rest]
  exact Iff.rfl

theorem plansAlike_iff (options : Options) (unique : UniqueIds options) :
    PlansAlike options ↔ Untimely options ∨
      Spaced options.previous.start (tokensOf (normalizePrevious options.previous).byCamera) := by
  constructor
  · intro alike
    by_contra neither
    obtain ⟨timely, unspaced⟩ := not_or.mp neither
    obtain ⟨first, second, one, two, above, apart⟩ :=
      unspaced_previous options.previous unique.previous unspaced
    have ordered : ∀ previous, options.previous.Rearranged previous →
        options.Rearranged { options with previous } := fun previous rearranged =>
      ⟨List.Perm.refl _, List.Perm.refl _, rearranged, rfl⟩
    have plans : ∀ previous, options.previous.Rearranged previous →
        ∃ plan count nowMs, planAssignments { options with previous } = .ok plan ∧
          options.now = some nowMs ∧ (∀ leaseExpiresAt first, (issueTokens leaseExpiresAt first
            (byId (planFleet options nowMs).records)).2 = first + count) ∧
          plan.nextToken = max (normalizePrevious previous).nextToken 1 + count := by
      intro previous rearranged
      have same := ordered previous rearranged
      rcases planAssignments_made { options with previous } with
        ⟨-, plan, -, -, planned, -⟩ | ⟨-, untimely⟩
      · obtain ⟨nowMs, leaseExpiresAt, now, -, issued⟩ := planned_made _ plan planned
        rw [same.fleet unique] at issued
        obtain ⟨count, counted⟩ := issueTokens_count (byId (planFleet options nowMs).records)
        refine ⟨plan, count, nowMs, planned, now, counted, ?_⟩
        rw [← counted leaseExpiresAt, ← issued]
      · exact absurd (same.untimely.mp untimely) timely
    obtain ⟨plan, count, nowMs, planned, now, counted, next⟩ := plans first one
    obtain ⟨plan', count', nowMs', planned', now', counted', next'⟩ := plans second two
    have outcomes := (alike _ (ordered first one)).trans (alike _ (ordered second two)).symm
    rw [planned, planned'] at outcomes
    have sameNext : plan.nextToken = plan'.nextToken :=
      congrArg (fun outcome => outcome.2.1) (Except.ok.inj outcomes)
    rw [now] at now'
    cases now'
    have sameCount : count = count' := by
      have counts := (counted 0 0).symm.trans (counted' 0 0)
      rwa [zero_add, zero_add] at counts
    rw [next, next', sameCount, max_eq_left above.le,
      max_eq_left (above.trans apart).le] at sameNext
    linarith
  · rintro (untimely | spaced)
    · intro other rearranged
      have now : other.now = options.now := by rw [rearranged.rest]
      rw [untimely_refused other (rearranged.untimely.mpr untimely),
        untimely_refused options untimely, now]
    · intro other rearranged
      rw [rearranged.planned unique (rearranged.previous.nextToken unique.previous spaced)]

/-- A node of the registry, with the cameras it lists. -/
structure RegistryNode where
  id : Text
  cameras : List Text

def normalizeCameras (cameras : List Text) : List Text :=
  (cameras.map trim).filter fun id => id ≠ []

/-- One row for each camera that a node lists, without a token. -/
def RegistryNode.rows (node : RegistryNode) : List StoredAssignment :=
  (normalizeCameras node.cameras).map fun cameraId => ⟨cameraId, trim node.id, .null, none⟩

def assignmentsFromRegistry (nodes : List RegistryNode) : List StoredAssignment :=
  (nodes.flatMap RegistryNode.rows).insertionSort fun a b => unitsLe a.cameraId b.cameraId = true

/-- The saved plan, or the registry where there is none yet. -/
def previousFromInstallation (saved : Option StoredPlan) (nodes : List RegistryNode) : StoredPlan :=
  match saved with
  | some plan => plan
  | none =>
    { assignments := assignmentsFromRegistry nodes
      revoked := []
      nextToken := some 0
      epoch := some 0 }

/-- Whom the registry makes the owner of a camera, where no plan is saved. -/
def bootstrapOwner (nodes : List RegistryNode) (cameraId : Text) : Option Text :=
  (normalizePrevious (.plan (previousFromInstallation none nodes))).owner cameraId

theorem previousOfList_last (cameraId : Text) : field (previousOfList assignments) cameraId =
      ((assignments.filter fun raw => raw.named && trim raw.cameraId = cameraId).getLast?).map
        fun raw => raw.trimmed.2 := by
  induction assignments using List.reverseRecOn with
  | nil => rfl
  | append_singleton before raw ih =>
    have added : previousOfList (before ++ [raw]) = previousEntry (previousOfList before)
        raw.cameraId raw.nodeId (positive raw.token.toNumber) := by
      rw [previousOfList, foldl_append]
      rfl
    rw [added, previousEntry, filter_append]
    by_cases blank : trim raw.cameraId = [] ∨ trim raw.nodeId = []
    · have unnamed : raw.named = false := by simp [StoredAssignment.named, blank]
      rw [if_pos blank, ih]
      simp [unnamed]
    · have named : raw.named = true := by simp [StoredAssignment.named, blank]
      rw [if_neg blank, field_setField, ih]
      by_cases same : trim raw.cameraId = cameraId
      · simp [named, same, StoredAssignment.trimmed]
      · simp [named, same]

theorem mem_rows (node : RegistryNode) (raw : StoredAssignment) (member : raw ∈ node.rows) :
    raw.nodeId = trim node.id ∧ trim raw.cameraId = raw.cameraId ∧ raw.cameraId ≠ [] ∧
      raw.cameraId ∈ normalizeCameras node.cameras := by
  obtain ⟨camera, listed, rfl⟩ := mem_map.mp member
  obtain ⟨inTrimmed, solid⟩ := mem_filter.mp listed
  obtain ⟨source, -, rfl⟩ := mem_map.mp inTrimmed
  exact ⟨rfl, trim_trim source, of_decide_eq_true solid, listed⟩

theorem rows_named (node : RegistryNode) (raw : StoredAssignment) (member : raw ∈ node.rows) :
    raw.named = true ↔ trim node.id ≠ [] := by
  obtain ⟨host, camera, solid, -⟩ := mem_rows node raw member
  rw [StoredAssignment.named, decide_eq_true_eq, host, camera, trim_trim, not_or]
  exact and_iff_right solid

variable (nodes : List RegistryNode)

theorem bootstrapOwner_last (cameraId : Text) :
    bootstrapOwner nodes cameraId = (((nodes.flatMap RegistryNode.rows).filter fun raw =>
      raw.named && trim raw.cameraId = cameraId).getLast?).map StoredAssignment.nodeId := by
  have trimmed : ∀ raw ∈ nodes.flatMap RegistryNode.rows,
      trim raw.cameraId = raw.cameraId ∧ trim raw.nodeId = raw.nodeId := by
    intro raw member
    obtain ⟨node, -, inRows⟩ := mem_flatMap.mp member
    obtain ⟨host, camera, -, -⟩ := mem_rows node raw inRows
    rw [host, trim_trim]
    exact ⟨camera, rfl⟩
  have sorted := insertionSort_filter
    (fun a b : StoredAssignment => unitsLe a.cameraId b.cameraId = true)
    (fun a b => unitsLe_total a.cameraId b.cameraId)
    (fun a b c => unitsLe_trans a.cameraId b.cameraId c.cameraId)
    (fun raw => raw.named && trim raw.cameraId = cameraId) (nodes.flatMap RegistryNode.rows)
  generalize rows : ((nodes.flatMap RegistryNode.rows).filter fun raw =>
    raw.named && trim raw.cameraId = cameraId) = listed at sorted ⊢
  have ofCamera : ∀ raw ∈ listed, raw.cameraId = cameraId ∧ trim raw.nodeId = raw.nodeId := by
    intro raw member
    rw [← rows] at member
    obtain ⟨inRows, chosen⟩ := mem_filter.mp member
    obtain ⟨camera, node⟩ := trimmed raw inRows
    simp only [Bool.and_eq_true, decide_eq_true_eq] at chosen
    exact ⟨camera.symm.trans chosen.2, node⟩
  have inOrder : listed.Pairwise fun a b => unitsLe a.cameraId b.cameraId = true := by
    apply pairwise_of_forall_mem_list
    intro a first b second
    rw [(ofCamera a first).1, (ofCamera b second).1]
    exact (unitsLe_total cameraId cameraId).elim (fun h => h) fun h => h
  rw [inOrder.insertionSort_eq] at sorted
  have owner : bootstrapOwner nodes cameraId =
      (field (previousOfList (assignmentsFromRegistry nodes)) cameraId).map
        PreviousEntry.nodeId := rfl
  rw [owner, previousOfList_last, assignmentsFromRegistry, ← sorted, Option.map_map]
  cases last : listed.getLast? with
  | none => rfl
  | some raw =>
    have member := List.mem_of_getLast? last
    exact congrArg some (ofCamera raw member).2

/-- Every order of the registry makes the same nodes the owners. -/
def BootstrapsAlike (nodes : List RegistryNode) : Prop :=
  ∀ other, nodes.Perm other → bootstrapOwner other = bootstrapOwner nodes

/-- No camera is listed by two nodes. -/
def OneOwner (nodes : List RegistryNode) : Prop :=
  ∀ a ∈ nodes, ∀ b ∈ nodes, trim a.id ≠ [] → trim b.id ≠ [] →
    ∀ cameraId ∈ normalizeCameras a.cameras, cameraId ∈ normalizeCameras b.cameras →
      trim a.id = trim b.id

theorem named_row (cameraId : Text) (raw : StoredAssignment)
    (member : raw ∈ (nodes.flatMap RegistryNode.rows).filter fun raw =>
      raw.named && trim raw.cameraId = cameraId) :
    ∃ node ∈ nodes, trim node.id ≠ [] ∧ cameraId ∈ normalizeCameras node.cameras ∧
      raw.nodeId = trim node.id := by
  obtain ⟨inRows, chosen⟩ := mem_filter.mp member
  obtain ⟨node, inNodes, row⟩ := mem_flatMap.mp inRows
  obtain ⟨host, camera, -, listed⟩ := mem_rows node raw row
  simp only [Bool.and_eq_true, decide_eq_true_eq] at chosen
  rw [← chosen.2, camera]
  exact ⟨node, inNodes, (rows_named node raw row).mp chosen.1, listed, host⟩

theorem bootstrapOwner_end (node : RegistryNode) (solid : trim node.id ≠ []) (cameraId : Text)
    (listed : cameraId ∈ normalizeCameras node.cameras) :
    bootstrapOwner (nodes ++ [node]) cameraId = some (trim node.id) := by
  rw [bootstrapOwner_last, flatMap_append, filter_append, List.getLast?_append, flatMap_singleton]
  have inRows : (⟨cameraId, trim node.id, .null, none⟩ : StoredAssignment) ∈ node.rows :=
    mem_map_of_mem listed
  obtain ⟨-, camera, -, -⟩ := mem_rows node _ inRows
  have kept : (⟨cameraId, trim node.id, .null, none⟩ : StoredAssignment) ∈
      node.rows.filter fun raw => raw.named && trim raw.cameraId = cameraId := by
    refine mem_filter.mpr ⟨inRows, ?_⟩
    rw [(rows_named node _ inRows).mpr solid, Bool.true_and, camera]
    exact decide_eq_true rfl
  cases last : (node.rows.filter fun raw =>
      raw.named && trim raw.cameraId = cameraId).getLast? with
  | none =>
    rw [List.getLast?_eq_none_iff.mp last] at kept
    cases kept
  | some raw =>
    have member := mem_of_mem_filter (List.mem_of_getLast? last)
    exact congrArg some (mem_rows node raw member).1

theorem bootstrapsAlike_iff : BootstrapsAlike nodes ↔ OneOwner nodes := by
  constructor
  · intro alike a inA b inB solid solid' cameraId listed listed'
    have ends : ∀ node ∈ nodes, trim node.id ≠ [] → cameraId ∈ normalizeCameras node.cameras →
        bootstrapOwner nodes cameraId = some (trim node.id) := by
      intro node member solid listed
      obtain ⟨before, after, rfl⟩ := append_of_mem member
      have perm : (before ++ node :: after).Perm ((before ++ after) ++ [node]) :=
        perm_middle.trans (perm_append_singleton _ _).symm
      rw [← alike _ perm]
      exact bootstrapOwner_end _ node solid cameraId listed
    exact Option.some.inj ((ends a inA solid listed).symm.trans (ends b inB solid' listed'))
  · intro one other perm
    funext cameraId
    have rows := (perm.flatMap_right RegistryNode.rows).filter fun raw =>
      raw.named && trim raw.cameraId = cameraId
    have agree : ∀ raw ∈ (nodes.flatMap RegistryNode.rows).filter (fun raw =>
          raw.named && trim raw.cameraId = cameraId),
        ∀ raw' ∈ (nodes.flatMap RegistryNode.rows).filter (fun raw =>
          raw.named && trim raw.cameraId = cameraId), raw.nodeId = raw'.nodeId := by
      intro raw inRows raw' inRows'
      obtain ⟨node, member, solid, listed, host⟩ := named_row nodes cameraId raw inRows
      obtain ⟨node', member', solid', listed', host'⟩ := named_row nodes cameraId raw' inRows'
      rw [host, host']
      exact one node member node' member' solid solid' cameraId listed listed'
    rw [bootstrapOwner_last, bootstrapOwner_last]
    cases first : ((nodes.flatMap RegistryNode.rows).filter fun raw =>
        raw.named && trim raw.cameraId = cameraId).getLast? with
    | none =>
      rw [List.getLast?_eq_none_iff.mp first] at rows
      rw [nil_perm.mp rows]
      rfl
    | some raw =>
      have inFirst := List.mem_of_getLast? first
      cases second : ((other.flatMap RegistryNode.rows).filter fun raw =>
          raw.named && trim raw.cameraId = cameraId).getLast? with
      | none =>
        rw [List.getLast?_eq_none_iff.mp second] at rows
        rw [perm_nil.mp rows] at inFirst
        cases inFirst
      | some raw' =>
        have inSecond := rows.mem_iff.mpr (List.mem_of_getLast? second)
        exact congrArg some (agree raw' inSecond raw inFirst)

/-- The order of the arrivals plays no part, unless the registry lists a camera under two nodes or
previous tokens are less than one apart. -/
theorem arrival_order_iff (options : Options) (unique : UniqueIds options)
    (nodes : List RegistryNode) : PlansAlike options ∧ BootstrapsAlike nodes ↔
      (Untimely options ∨
        Spaced options.previous.start (tokensOf (normalizePrevious options.previous).byCamera)) ∧
      OneOwner nodes :=
  and_congr (plansAlike_iff options unique) (bootstrapsAlike_iff nodes)

theorem ownedBy_unique : UniqueIds (ownedBy nodeA []) := by
  refine ⟨?_, ?_, ?_⟩ <;> decide +kernel

theorem ownedBy_alike :
    PlansAlike (ownedBy nodeA []) ∧ BootstrapsAlike [⟨nodeA, [cameraOne]⟩, ⟨nodeB, []⟩] := by
  refine (arrival_order_iff (ownedBy nodeA []) ownedBy_unique _).mpr ⟨Or.inr ?_, ?_⟩
  · unfold Spaced
    decide +kernel
  · unfold OneOwner
    decide +kernel

/-- A camera that two nodes list belongs to the one that comes last. -/
theorem listedTwice_differs : ¬∀ options nodes, UniqueIds options →
    PlansAlike options ∧ BootstrapsAlike nodes := by
  intro always
  obtain ⟨-, alike⟩ := always (ownedBy nodeA []) [⟨nodeA, [cameraOne]⟩, ⟨nodeB, [cameraOne]⟩]
    ownedBy_unique
  have swapped := alike [⟨nodeB, [cameraOne]⟩, ⟨nodeA, [cameraOne]⟩] (.swap _ _ [])
  have owner := congrFun swapped cameraOne
  exact absurd owner (by decide +kernel)

end DracVms.Scheduler
