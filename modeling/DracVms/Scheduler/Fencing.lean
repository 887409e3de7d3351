import DracVms.Scheduler.Leases
import DracVms.Scheduler.Sanity

namespace DracVms.Scheduler

open List

open Json (Text field setField foldl_setField field_eq_some)
open JsString (trim trim_trim)

/-- The next token of a saved plan, as the planner takes it. -/
def StoredPlan.next (plan : StoredPlan) : Rat := (normalizePrevious (.plan plan)).nextToken

/-- A token that is null or a positive number. -/
def Given (token : StoredToken) : Prop := token = .null ∨ ∃ n, token = .number n ∧ 0 < n

/-- A plan that normalising leaves as it is. A null token is that of an owner taken over from the
registry, which never got one. -/
structure Normalised (plan : StoredPlan) : Prop where
  cameras : ∀ assignment ∈ plan.assignments,
    trim assignment.cameraId = assignment.cameraId ∧ assignment.cameraId ≠ []
  nodes : ∀ assignment ∈ plan.assignments,
    trim assignment.nodeId = assignment.nodeId ∧ assignment.nodeId ≠ []
  distinct : (plan.assignments.map StoredAssignment.cameraId).Nodup
  tokens : ∀ assignment ∈ plan.assignments, Given assignment.token
  revoked : ∀ token ∈ plan.revoked, Given token ∧ ∀ n, token = .number n → n < plan.next

/-- The tokens of the owners and the next one are whole numbers, as the planner issues them. -/
structure Counted (plan : StoredPlan) : Prop where
  tokens : ∀ assignment ∈ plan.assignments, ∀ n, assignment.token = .number n → Whole n
  nextToken : ∀ n, plan.nextToken = some n → Whole n

/-- No token has reached the numbers that a double no longer counts one by one. -/
def InRange (plan : StoredPlan) : Prop := plan.next < 2 ^ 53

/-- The entry of the previous owners that an assignment becomes. -/
def StoredAssignment.entry (assignment : StoredAssignment) : Text × PreviousEntry :=
  (assignment.cameraId, ⟨assignment.nodeId, positive assignment.token.toNumber⟩)

theorem previousOfList_eq (assignments : List StoredAssignment)
    (cameras : ∀ assignment ∈ assignments, trim assignment.cameraId = assignment.cameraId ∧
      assignment.cameraId ≠ [])
    (nodes : ∀ assignment ∈ assignments, trim assignment.nodeId = assignment.nodeId ∧
      assignment.nodeId ≠ [])
    (distinct : (assignments.map StoredAssignment.cameraId).Nodup) :
    previousOfList assignments = assignments.map StoredAssignment.entry := by
  have sets : ∀ (rest : List StoredAssignment) (done : List (Text × PreviousEntry)),
      (∀ assignment ∈ rest, assignment ∈ assignments) →
      rest.foldl (fun byCamera raw =>
        previousEntry byCamera raw.cameraId raw.nodeId (positive raw.token.toNumber)) done =
      (rest.map StoredAssignment.entry).foldl setField done := by
    intro rest
    induction rest with
    | nil => exact fun _ _ => rfl
    | cons assignment rest ih =>
      intro done listed
      have member := listed assignment mem_cons_self
      obtain ⟨camera, named⟩ := cameras assignment member
      obtain ⟨node, hosted⟩ := nodes assignment member
      have solid : ¬ (assignment.cameraId = [] ∨ assignment.nodeId = []) := by
        rintro (empty | empty)
        · exact named empty
        · exact hosted empty
      rw [foldl_cons, map_cons, foldl_cons, previousEntry, camera, node, if_neg solid]
      exact ih _ fun other later => listed other (mem_cons_of_mem _ later)
  rw [previousOfList, sets assignments [] fun _ member => member]
  apply foldl_setField
  rw [nil_append, map_map]
  exact distinct

variable {plan : StoredPlan}

theorem Normalised.byCamera (normalised : Normalised plan) :
    (normalizePrevious (.plan plan)).byCamera = plan.assignments.map StoredAssignment.entry :=
  previousOfList_eq plan.assignments normalised.cameras normalised.nodes normalised.distinct

theorem positive_number (n : Rat) (above : 0 < n) : positive (some n) = some n := if_pos above

theorem Normalised.below (normalised : Normalised plan) (assignment : StoredAssignment)
    (member : assignment ∈ plan.assignments) (n : Rat) (token : assignment.token = .number n) :
    0 < n ∧ n < plan.next := by
  have above : 0 < n := by
    rcases normalised.tokens assignment member with null | ⟨m, same, above⟩
    · rw [token] at null
      cases null
    · rw [token] at same
      cases same
      exact above
  refine ⟨above, ?_⟩
  apply (normalizePrevious_known (.plan plan)).2 assignment.entry
  · rw [normalised.byCamera]
    exact mem_map_of_mem member
  · show positive assignment.token.toNumber = some n
    rw [token]
    exact positive_number n above

theorem given_positive (token : StoredToken) (given : Given token) (n : Rat) :
    positive token.toNumber = some n ↔ token = .number n := by
  rcases given with rfl | ⟨m, rfl, above⟩
  · constructor
    all_goals
      intro impossible
      cases impossible
  · show positive (some m) = some n ↔ _
    rw [positive_number m above]
    constructor
    all_goals
      rintro ⟨⟩
      rfl

theorem raiseToken_whole (entries : List (Text × PreviousEntry)) (start : Rat) (whole : Whole start)
    (all : ∀ entry ∈ entries, ∀ n, entry.2.token = some n → Whole n) :
    Whole (entries.foldl raiseToken start) := by
  induction entries generalizing start with
  | nil => exact whole
  | cons entry rest ih =>
    apply ih
    · unfold raiseToken
      split
      · exact whole
      · rename_i n token
        split
        · exact (all entry mem_cons_self n token).next
        · exact whole
    · exact fun other member => all other (mem_cons_of_mem _ member)

theorem positive_whole (n : Option Rat) (whole : ∀ m, n = some m → Whole m) :
    Whole ((positive n).getD 0) := by
  unfold positive
  split
  · exact ⟨0, Nat.cast_zero.symm⟩
  · rename_i m
    split
    · exact whole m rfl
    · exact ⟨0, Nat.cast_zero.symm⟩

theorem Counted.next (counted : Counted plan) (normalised : Normalised plan) : Whole plan.next := by
  apply raiseToken_whole
  · exact positive_whole plan.nextToken counted.nextToken
  · rw [show previousOfList plan.assignments = _ from normalised.byCamera]
    intro entry member n token
    obtain ⟨assignment, inPlan, rfl⟩ := mem_map.mp member
    apply counted.tokens assignment inPlan n
    exact (given_positive assignment.token (normalised.tokens assignment inPlan) n).mp token

/-- One replanning, seen from the saved plan. -/
structure Replanned (current : StoredPlan) (plan : Plan) : Prop where
  normalised : Normalised plan.stored
  next : max current.next 1 ≤ plan.stored.next
  tokens : ∀ assignment ∈ plan.assignments, keeps current assignment = true ∨
    max current.next 1 ≤ assignment.token ∧ assignment.token < plan.stored.next
  ordered : plan.assignments.Pairwise fun earlier later => keeps current earlier = true ∨
    keeps current later = true ∨ earlier.token < later.token
  renewed : ∀ assignment ∈ plan.assignments, ∀ old ∈ current.assignments,
    old.cameraId = assignment.cameraId → old.nodeId = assignment.nodeId →
    old.token = .null ∨ old.token = .number assignment.token
  counted : Counted current → Counted plan.stored

theorem stored_next (plan : Plan) (above : 0 < plan.nextToken) :
    plan.nextToken ≤ plan.stored.next := by
  have raised := (foldl_raiseToken (previousOfList plan.stored.assignments)
    ((positive plan.stored.nextToken).getD 0)).1
  have start : positive plan.stored.nextToken = some plan.nextToken :=
    positive_number plan.nextToken above
  show plan.nextToken ≤ List.foldl raiseToken ((positive plan.stored.nextToken).getD 0) _
  rw [start] at raised ⊢
  exact raised

theorem Normalised.known (normalised : Normalised plan) (cameraId : Text) (entry : PreviousEntry)
    (member : (cameraId, entry) ∈ (normalizePrevious (.plan plan)).byCamera) :
    ∃ old ∈ plan.assignments, old.cameraId = cameraId ∧ old.nodeId = entry.nodeId ∧
      ∀ n, entry.token = some n → old.token = .number n := by
  rw [normalised.byCamera] at member
  obtain ⟨old, inPlan, same⟩ := mem_map.mp member
  cases same
  refine ⟨old, inPlan, rfl, rfl, ?_⟩
  intro n token
  exact (given_positive old.token (normalised.tokens old inPlan) n).mp token

variable (current : StoredPlan)

theorem keeps_iff (assignment : Assignment) :
    keeps current assignment = true ↔ ∃ old ∈ current.assignments,
      old.cameraId = assignment.cameraId ∧ old.nodeId = assignment.nodeId ∧
        old.token = .number assignment.token := by
  rw [keeps, any_eq_true]
  exact exists_congr fun old => and_congr_right fun _ => decide_eq_true_iff

theorem Made.stored_normalised {options : Options} {nowMs : Rat} {plan : Plan} {fleet : Fleet}
    (made : Made options nowMs plan fleet) : Normalised plan.stored := by
  have sane := made.sane
  have known := normalizePrevious_known options.previous
  have grows : max (normalizePrevious options.previous).nextToken 1 ≤ plan.nextToken :=
    made.issued.grows
  have above : 0 < plan.nextToken := one_pos.trans_le ((le_max_right _ _).trans grows)
  have cameras : ∀ assignment ∈ plan.assignments,
      assignment.cameraId ∈ plan.assignments.map Assignment.cameraId ++
        plan.unassigned.map Unassigned.cameraId := fun assignment member =>
    mem_append_left _ (mem_map_of_mem member)
  refine ⟨?_, ?_, ?_, ?_, ?_⟩
  · intro assignment member
    obtain ⟨source, inPlan, rfl⟩ := mem_map.mp member
    obtain ⟨raw, -, named, solid⟩ := sane.nothingElse source.cameraId (cameras source inPlan)
    refine ⟨?_, solid⟩
    rw [← named, trim_trim]
  · intro assignment member
    obtain ⟨source, inPlan, rfl⟩ := mem_map.mp member
    obtain ⟨node, inNodes, host, -⟩ := sane.hosts source inPlan
    obtain ⟨solid, raw, -, fixed⟩ := sane.registered node inNodes
    have named : node.id = trim raw.id := congrArg Prod.fst fixed
    rw [← host]
    refine ⟨?_, solid⟩
    rw [named, trim_trim]
  · have ids : plan.stored.assignments.map StoredAssignment.cameraId =
        plan.assignments.map Assignment.cameraId := by
      rw [Plan.stored, map_map]
      rfl
    rw [ids]
    have distinct := made.ids.nodup_iff.mpr (normalizeWorkloads_ids _).1
    exact (nodup_append.mp distinct).1
  · intro assignment member
    obtain ⟨source, inPlan, rfl⟩ := mem_map.mp member
    refine Or.inr ⟨source.token, rfl, ?_⟩
    rcases made.issued.tokens source inPlan with keptToken | ⟨-, lower, -⟩
    · obtain ⟨entry, member, -, token⟩ := made.kept source keptToken
      exact known.1.positive _ member _ token
    · exact one_pos.trans_le ((le_max_right _ _).trans lower)
  · intro token member
    obtain ⟨entry, inRevoked, rfl⟩ := mem_map.mp member
    cases revoked : entry.token with
    | none => exact ⟨Or.inl rfl, nofun⟩
    | some n =>
      rw [made.revoked] at inRevoked
      obtain ⟨record, inRecords, revocation⟩ := mem_filterMap.mp inRevoked
      have previousToken : record.previousToken = some n := by
        unfold revocationOf at revocation
        split at revocation
        · cases revocation
        · split at revocation
          · cases revocation
          · cases revocation
            exact revoked
      have found := (made.previous record inRecords).2
      rw [previousToken] at found
      obtain ⟨owner, located, token⟩ := Option.bind_eq_some_iff.mp found
      have member := (field_eq_some _ known.1.distinct _ _).mp located
      refine ⟨Or.inr ⟨n, rfl, known.1.positive _ member n token⟩, ?_⟩
      rintro m ⟨⟩
      calc n < (normalizePrevious options.previous).nextToken := known.2 _ member n token
        _ ≤ max (normalizePrevious options.previous).nextToken 1 := le_max_left _ _
        _ ≤ plan.stored.next := grows.trans (stored_next plan above)

theorem replan_replanned (normalised : Normalised current) (request : Options) (plan : Plan)
    (planned : replan current request = .ok plan) : Replanned current plan := by
  obtain ⟨nowMs, fleet, made⟩ : ∃ nowMs fleet,
      Made { request with previous := .plan current } nowMs plan fleet := by
    rcases planAssignments_made { request with previous := .plan current } with
      ⟨nowMs, other, fleet, -, same, made⟩ | ⟨⟨refusal, refused⟩, -⟩
    · rw [show planAssignments _ = .ok plan from planned] at same
      cases same
      exact ⟨nowMs, fleet, made⟩
    · rw [show planAssignments _ = .ok plan from planned] at refused
      cases refused
  have known := normalizePrevious_known (.plan current)
  have grows : max current.next 1 ≤ plan.nextToken := made.issued.grows
  have above : 0 < plan.nextToken := one_pos.trans_le ((le_max_right _ _).trans grows)
  have stored := stored_next plan above
  have kept : ∀ assignment, Kept (byId fleet.records) assignment →
      keeps current assignment = true := by
    intro assignment keptToken
    obtain ⟨entry, member, host, token⟩ := made.kept assignment keptToken
    obtain ⟨old, inPlan, named, node, number⟩ := normalised.known _ entry member
    exact (keeps_iff current assignment).mpr ⟨old, inPlan, named, node.trans host, number _ token⟩
  refine ⟨made.stored_normalised, grows.trans stored, ?_, ?_, ?_, ?_⟩
  · intro assignment member
    rcases made.issued.tokens assignment member with keptToken | ⟨-, lower, upper⟩
    · exact Or.inl (kept assignment keptToken)
    · exact Or.inr ⟨lower, upper.trans_le stored⟩
  · exact made.issued.ordered.imp fun either =>
      either.imp (kept _) (Or.imp_left (kept _))
  · intro assignment member old inCurrent camera node
    rcases made.issued.tokens assignment member with keptToken | ⟨renewed, -⟩
    · obtain ⟨other, inPlan, named, -, number⟩ :=
        (keeps_iff current assignment).mp (kept assignment keptToken)
      have same := KeyedList.eq_of_key normalised.distinct inPlan inCurrent
        (named.trans camera.symm)
      rw [← same]
      exact Or.inr number
    · obtain ⟨record, inRecords, named, unowned⟩ := renewed
      obtain ⟨owner, token⟩ := made.previous record inRecords
      have located : field (normalizePrevious (.plan current)).byCamera record.id =
          some ⟨old.nodeId, positive old.token.toNumber⟩ := by
        apply (field_eq_some _ known.1.distinct _ _).mpr
        rw [normalised.byCamera, named, ← camera]
        exact mem_map_of_mem inCurrent
      rw [located] at owner token
      have blank := unowned (owner.symm.trans (congrArg some node))
      left
      rcases normalised.tokens old inCurrent with null | ⟨n, number, above⟩
      · exact null
      · rw [blank] at token
        have present := (given_positive old.token (Or.inr ⟨n, number, above⟩) n).mpr number
        rw [show positive old.token.toNumber = none from token] at present
        cases present
  · intro counted
    have first : Whole (max current.next 1) := by
      rcases max_choice current.next 1 with same | same
      · rw [same]
        exact counted.next normalised
      · rw [same]
        exact ⟨1, Nat.cast_one.symm⟩
    obtain ⟨last, tokens⟩ := made.issued.whole first
    refine ⟨?_, ?_⟩
    · intro assignment member n token
      obtain ⟨source, inPlan, rfl⟩ := mem_map.mp member
      cases token
      rcases tokens source inPlan with keptToken | whole
      · obtain ⟨old, inCurrent, -, -, number⟩ :=
          (keeps_iff current source).mp (kept source keptToken)
        exact counted.tokens old inCurrent _ number
      · exact whole
    · rintro n ⟨⟩
      exact last

theorem advance_cases (normalised : Normalised current) (request : Options) :
    advance current request = current ∨
      ∃ plan, replan current request = .ok plan ∧ advance current request = plan.stored ∧
        Replanned current plan := by
  unfold advance
  cases planned : replan current request with
  | error refusal => exact Or.inl rfl
  | ok plan => exact Or.inr ⟨plan, rfl, rfl, replan_replanned current normalised request plan planned⟩

theorem after_normalised (start : StoredPlan) (normalised : Normalised start)
    (requests : List Options) : Normalised (after start requests) := by
  induction requests generalizing start with
  | nil => exact normalised
  | cons request rest ih =>
    rcases advance_cases start normalised request with same | ⟨plan, -, same, replanned⟩
    · show Normalised (after (advance start request) rest)
      rw [same]
      exact ih start normalised
    · show Normalised (after (advance start request) rest)
      rw [same]
      exact ih plan.stored replanned.normalised

theorem after_counted (start : StoredPlan) (normalised : Normalised start)
    (counted : Counted start) (requests : List Options) : Counted (after start requests) := by
  induction requests generalizing start with
  | nil => exact counted
  | cons request rest ih =>
    rcases advance_cases start normalised request with same | ⟨plan, -, same, replanned⟩
    · show Counted (after (advance start request) rest)
      rw [same]
      exact ih start normalised counted
    · show Counted (after (advance start request) rest)
      rw [same]
      exact ih plan.stored replanned.normalised (replanned.counted counted)

/-- The claim names this assignment: its camera, its node and its very token. -/
structure Names (claim : Claim) (assignment : StoredAssignment) : Prop where
  camera : assignment.cameraId = trim claim.cameraId
  node : assignment.nodeId = trim claim.nodeId
  token : ∃ n, claim.token = some n ∧ assignment.token.toNumber = some n

def Current (plan : StoredPlan) (claim : Claim) : Prop :=
  ∃ assignment ∈ plan.assignments, Names claim assignment

variable (plan : StoredPlan)

theorem checkFencing_current (normalised : Normalised plan) (claim : Claim)
    (accepted : (checkFencing (some plan) claim).accepted = true) : Current plan claim := by
  unfold checkFencing at accepted
  cases token : claim.token with
  | none =>
    rw [token] at accepted
    cases accepted
  | some n =>
    rw [token] at accepted
    dsimp only at accepted
    split at accepted
    · cases accepted
    · rename_i solid
      split at accepted
      · cases accepted
      · rename_i current found
        split at accepted
        · cases accepted
        · rename_i compared
          split at accepted
          · cases accepted
          · rename_i node
            unfold findAssignment at found
            rw [trim_trim, if_neg fun empty => solid (Or.inl empty)] at found
            have camera := List.find?_some found
            have member := List.mem_of_find?_eq_some found
            refine ⟨current, member, of_decide_eq_true camera, not_not.mp node, n, token, ?_⟩
            obtain ⟨m, number⟩ : ∃ m, current.token.toNumber = some m := by
              rcases normalised.tokens current member with null | ⟨m, number, -⟩
              · exact ⟨0, by rw [null]; rfl⟩
              · exact ⟨m, by rw [number]; rfl⟩
            rw [number, compareTokens] at compared
            split at compared
            · cases compared
            · rename_i below
              split at compared
              · cases compared
              · rename_i above
                rw [number, le_antisymm (not_lt.mp below) (not_lt.mp above)]

theorem current_below (normalised : Normalised plan) (claim : Claim)
    (current : Current plan claim) : ∃ n, claim.token = some n ∧ n < max plan.next 1 := by
  obtain ⟨assignment, member, -, -, n, token, number⟩ := current
  refine ⟨n, token, ?_⟩
  rcases normalised.tokens assignment member with null | ⟨m, same, -⟩
  · rw [null] at number
    cases number
    exact one_pos.trans_le (le_max_right _ _)
  · rw [same] at number
    have value : m = n := Option.some.inj number
    rw [← value]
    exact (normalised.below assignment member m same).2.trans_le (le_max_left _ _)

variable (requests : List Options)

theorem stale_stays (plan : StoredPlan) (normalised : Normalised plan) (claim : Claim) (n : Rat)
    (token : claim.token = some n) (below : n < max plan.next 1) (stale : ¬ Current plan claim) :
    ¬ Current (after plan requests) claim := by
  induction requests generalizing plan with
  | nil => exact stale
  | cons request rest ih =>
    show ¬ Current (after (advance plan request) rest) claim
    rcases advance_cases plan normalised request with same | ⟨next, -, same, replanned⟩
    · rw [same]
      exact ih plan normalised below stale
    · rw [same]
      have later : n < max next.stored.next 1 :=
        (below.trans_le replanned.next).trans_le (le_max_left _ _)
      apply ih next.stored replanned.normalised later
      rintro ⟨assignment, member, named⟩
      obtain ⟨source, inPlan, rfl⟩ := mem_map.mp member
      obtain ⟨m, held, number⟩ := named.token
      rw [token] at held
      cases held
      have same : source.token = n := Option.some.inj number
      rcases replanned.tokens source inPlan with kept | ⟨lower, -⟩
      · obtain ⟨old, inOld, camera, node, oldToken⟩ := (keeps_iff plan source).mp kept
        apply stale
        refine ⟨old, inOld, camera.trans named.camera, node.trans named.node, n, token, ?_⟩
        rw [oldToken, same]
        rfl
      · rw [same] at lower
        exact absurd below (not_lt.mpr lower)

theorem after_append (start : StoredPlan) (first second : List Options) :
    after start (first ++ second) = after (after start first) second :=
  foldl_append

theorem next_after (plan : StoredPlan) (normalised : Normalised plan) :
    max plan.next 1 ≤ max (after plan requests).next 1 := by
  induction requests generalizing plan with
  | nil => exact le_refl _
  | cons request rest ih =>
    show max plan.next 1 ≤ max (after (advance plan request) rest).next 1
    rcases advance_cases plan normalised request with same | ⟨next, -, same, replanned⟩
    · rw [same]
      exact ih plan normalised
    · rw [same]
      exact (replanned.next.trans (le_max_left _ _)).trans (ih next.stored replanned.normalised)

/-- Where an issued token lies: above all that was there, and below all that comes. -/
structure Issue (start last : StoredPlan) (token : Rat) : Prop where
  above : max start.next 1 ≤ token
  below : token < max last.next 1
  whole : Counted start → Whole token

theorem issuedTokens_nodup (start : StoredPlan) (normalised : Normalised start) :
    (issuedTokens start requests).Nodup ∧
      ∀ token ∈ issuedTokens start requests, Issue start (after start requests) token := by
  induction requests generalizing start with
  | nil => exact ⟨nodup_nil, nofun⟩
  | cons request rest ih =>
    have onward : after start (request :: rest) = after (advance start request) rest := rfl
    unfold issuedTokens
    rw [onward, advance]
    cases planned : replan start request with
    | error refusal => exact ih start normalised
    | ok plan =>
      have replanned := replan_replanned start normalised request plan planned
      obtain ⟨later, issues⟩ := ih plan.stored replanned.normalised
      have fresh : ∀ assignment ∈ plan.assignments.filter (fun a => !keeps start a),
          assignment ∈ plan.assignments ∧ ¬ keeps start assignment = true := by
        intro assignment member
        obtain ⟨inPlan, new⟩ := mem_filter.mp member
        refine ⟨inPlan, ?_⟩
        rwa [Bool.not_eq_true', ← Bool.not_eq_true] at new
      have bounds : ∀ token ∈ (plan.assignments.filter fun a => !keeps start a).map
          Assignment.token, Issue start plan.stored token := by
        intro token member
        obtain ⟨assignment, inFresh, rfl⟩ := mem_map.mp member
        obtain ⟨inPlan, new⟩ := fresh assignment inFresh
        obtain ⟨lower, upper⟩ := (replanned.tokens assignment inPlan).resolve_left new
        refine ⟨lower, upper.trans_le (le_max_left _ _), ?_⟩
        intro counted
        exact (replanned.counted counted).tokens _ (mem_map_of_mem inPlan) _ rfl
      have increasing : (plan.assignments.filter fun a => !keeps start a).Pairwise
          fun earlier later => earlier.token ≠ later.token := by
        refine (replanned.ordered.filter _).imp_of_mem ?_
        intro earlier later inEarlier inLater either
        rcases either with kept | kept | less
        · exact absurd kept (fresh earlier inEarlier).2
        · exact absurd kept (fresh later inLater).2
        · exact less.ne
      refine ⟨nodup_append.mpr ⟨pairwise_map.mpr increasing, later, ?_⟩, ?_⟩
      · rintro token issued other more rfl
        exact absurd (bounds token issued).below (not_lt.mpr (issues token more).above)
      · intro token member
        rcases mem_append.mp member with issued | more
        · have first := bounds token issued
          exact ⟨first.above, first.below.trans_le (next_after rest _ replanned.normalised),
            first.whole⟩
        · have rest := issues token more
          refine ⟨?_, rest.below, fun counted => rest.whole (replanned.counted counted)⟩
          calc max start.next 1 ≤ plan.stored.next := replanned.next
            _ ≤ max plan.stored.next 1 := le_max_left _ _
            _ ≤ token := rest.above

/-- Every owner of the plan carries a token. -/
def Tokened (plan : StoredPlan) : Prop :=
  ∀ assignment ∈ plan.assignments, ∃ n, assignment.token = .number n

theorem foldl_raiseMax_lt (tokens : List StoredToken) (start bound : Rat) (below : start < bound)
    (all : ∀ token ∈ tokens, ∀ n, token.toNumber = some n → n < bound) :
    tokens.foldl raiseMax start < bound := by
  induction tokens generalizing start with
  | nil => exact below
  | cons token rest ih =>
    apply ih
    · unfold raiseMax
      cases number : token.toNumber with
      | none => exact below
      | some n =>
        dsimp only
        split
        · exact all token mem_cons_self n number
        · exact below
    · exact fun other member => all other (mem_cons_of_mem _ member)

theorem maxIssuedToken_lt (normalised : Normalised plan) :
    maxIssuedToken plan < max plan.next 1 := by
  have small : ∀ token, Given token → (∀ n, token = .number n → n < plan.next) →
      ∀ n, token.toNumber = some n → n < max plan.next 1 := by
    rintro token (rfl | ⟨m, rfl, -⟩) below n number
    · cases number
      exact one_pos.trans_le (le_max_right _ _)
    · have value : m = n := Option.some.inj number
      rw [← value]
      exact (below m rfl).trans_le (le_max_left _ _)
  apply foldl_raiseMax_lt
  · apply foldl_raiseMax_lt _ _ _ (one_pos.trans_le (le_max_right _ _))
    intro token listed
    obtain ⟨assignment, member, rfl⟩ := mem_map.mp listed
    exact small _ (normalised.tokens assignment member) fun n same =>
      (normalised.below assignment member n same).2
  · intro token member
    exact small token (normalised.revoked token member).1 (normalised.revoked token member).2

theorem replanned_monotonic (normalised : Normalised current) (tokened : Tokened current)
    (plan : Plan) (replanned : Replanned current plan) :
    tokensAreMonotonic current plan.stored = true := by
  have byCamera : (current.assignments.map fun assignment =>
      (assignment.cameraId, assignment)).foldl setField [] =
      current.assignments.map fun assignment => (assignment.cameraId, assignment) := by
    apply foldl_setField
    rw [nil_append, map_map]
    exact normalised.distinct
  have distinct : ((current.assignments.map fun assignment =>
      (assignment.cameraId, assignment)).map Prod.fst).Nodup := by
    rw [map_map]
    exact normalised.distinct
  have issuedBelow := maxIssuedToken_lt current normalised
  unfold tokensAreMonotonic
  simp only [byCamera, all_eq_true]
  intro assignment member
  obtain ⟨source, inPlan, rfl⟩ := mem_map.mp member
  have positiveToken : ¬ source.token ≤ 0 := by
    obtain ⟨above, -⟩ := replanned.normalised.below _ member source.token rfl
    exact not_le.mpr above
  have new : keeps current source ≠ true → maxIssuedToken current < source.token := fun unkept =>
    issuedBelow.trans_le ((replanned.tokens source inPlan).resolve_left unkept).1
  unfold tokenIsMonotonic
  simp only [StoredToken.toNumber, if_neg positiveToken]
  cases found : field (current.assignments.map fun assignment =>
      (assignment.cameraId, assignment)) source.cameraId with
  | none =>
    apply decide_eq_true
    apply new
    intro kept
    obtain ⟨old, inOld, camera, -⟩ := (keeps_iff current source).mp kept
    have listed : (source.cameraId, old) ∈ current.assignments.map fun assignment =>
        (assignment.cameraId, assignment) := mem_map.mpr ⟨old, inOld, by rw [camera]⟩
    rw [(field_eq_some _ distinct _ _).mpr listed] at found
    cases found
  | some before =>
    obtain ⟨old, inOld, same⟩ := mem_map.mp ((field_eq_some _ distinct _ _).mp found)
    obtain ⟨listed, rfl⟩ := Prod.mk.inj same
    dsimp only
    by_cases owner : old.nodeId = source.nodeId
    · rw [if_pos owner]
      apply decide_eq_true
      obtain ⟨n, number⟩ := tokened old inOld
      rcases replanned.renewed source inPlan old inOld listed owner with null | token
      · rw [number] at null
        cases null
      · rw [token]
    · rw [if_neg owner]
      apply decide_eq_true
      apply new
      intro kept
      obtain ⟨other, inOther, camera, node, -⟩ := (keeps_iff current source).mp kept
      rw [KeyedList.eq_of_key normalised.distinct inOther inOld (camera.trans listed.symm)] at node
      exact owner node

/-- What fencing promises of every run of replannings, as long as a double counts its tokens. -/
structure Fenced (start : StoredPlan) : Prop where
  owner : ∀ requests claim, InRange (after start requests) →
    (checkFencing (some (after start requests)) claim).accepted = true →
    ∃ assignment ∈ (after start requests).assignments, Names claim assignment ∧
      ∀ other ∈ (after start requests).assignments, other.cameraId = assignment.cameraId →
        other = assignment
  superseded : ∀ earlier between later claim,
    InRange (after start (earlier ++ between ++ later)) → Current (after start earlier) claim →
    ¬ Current (after start (earlier ++ between)) claim →
    (checkFencing (some (after start (earlier ++ between ++ later))) claim).accepted = false
  unique : ∀ requests, InRange (after start requests) → (issuedTokens start requests).Nodup ∧
    ∀ assignment ∈ start.assignments, ∀ n ∈ issuedTokens start requests,
      assignment.token ≠ .number n
  monotonic : ∀ requests request plan, InRange plan.stored → Tokened (after start requests) →
    replan (after start requests) request = .ok plan →
    tokensAreMonotonic (after start requests) plan.stored = true
  tokened : ∀ requests request plan, replan (after start requests) request = .ok plan →
    Tokened plan.stored
  /-- Where the planner adds one to a token, the double is exact. -/
  counts : ∀ requests, InRange (after start requests) → ∀ n,
    n ∈ issuedTokens start requests ∨ (∃ assignment ∈ start.assignments,
      assignment.token = .number n) → Binary64.double (n + 1) = n + 1

theorem double_next {n bound : Rat} (whole : Whole n) (wholeBound : Whole bound) (below : n < bound)
    (small : bound < 2 ^ 53) : Binary64.double (n + 1) = n + 1 := by
  obtain ⟨k, rfl⟩ := whole
  obtain ⟨m, rfl⟩ := wholeBound
  have less : k < m := by exact_mod_cast below
  have room : m < 2 ^ 53 := by exact_mod_cast small
  have counted := Binary64.double_intCast (n := (k : ℤ) + 1) (by
    rw [abs_of_nonneg (by omega)]
    omega)
  push_cast at counted
  exact counted

/-- Fencing holds over every run from a normalised plan. -/
theorem replans_fenced (start : StoredPlan) (normalised : Normalised start)
    (counted : Counted start) : Fenced start := by
  refine ⟨?_, ?_, ?_, ?_, ?_, ?_⟩
  · intro requests claim _ accepted
    have now := after_normalised start normalised requests
    obtain ⟨assignment, member, named⟩ := checkFencing_current _ now claim accepted
    refine ⟨assignment, member, named, ?_⟩
    intro other inPlan camera
    exact KeyedList.eq_of_key now.distinct inPlan member camera
  · intro earlier between later claim _ held lost
    have first := after_normalised start normalised earlier
    have second := after_normalised start normalised (earlier ++ between)
    obtain ⟨n, token, below⟩ := current_below _ first claim held
    have still := next_after between (after start earlier) first
    rw [← after_append] at still
    rw [Bool.eq_false_iff]
    intro accepted
    have third := after_normalised start normalised (earlier ++ between ++ later)
    apply stale_stays later _ second claim n token (below.trans_le still) lost
    rw [← after_append]
    exact checkFencing_current _ third claim accepted
  · intro requests _
    obtain ⟨distinct, issues⟩ := issuedTokens_nodup requests start normalised
    refine ⟨distinct, ?_⟩
    intro assignment member n issued same
    have below := (normalised.below assignment member n same).2
    exact absurd ((le_max_left _ _).trans (issues n issued).above) (not_le.mpr below)
  · intro requests request plan _ tokened planned
    have now := after_normalised start normalised requests
    exact replanned_monotonic _ now tokened plan (replan_replanned _ now request plan planned)
  · intro requests request plan _ assignment member
    obtain ⟨source, -, rfl⟩ := mem_map.mp member
    exact ⟨source.token, rfl⟩
  · intro requests inRange n known
    have whole : Whole (max (after start requests).next 1) := by
      rcases max_choice (after start requests).next 1 with same | same
      · rw [same]
        exact (after_counted start normalised counted requests).next
          (after_normalised start normalised requests)
      · rw [same]
        exact ⟨1, Nat.cast_one.symm⟩
    have small : max (after start requests).next 1 < 2 ^ 53 := max_lt inRange (by norm_num)
    rcases known with issued | ⟨assignment, member, token⟩
    · have issue := (issuedTokens_nodup requests start normalised).2 n issued
      exact double_next (issue.whole counted) whole issue.below small
    · have below := (normalised.below assignment member n token).2
      have grown := next_after requests start normalised
      exact double_next (counted.tokens assignment member n token) whole
        (below.trans_le ((le_max_left _ _).trans grown)) small

def cameraOne : Text := "cam-01".toList

def nodeA : Text := "no-a".toList

def nodeB : Text := "no-b".toList

/-- A request for one camera, at this time, with the nodes that are down. -/
def oneCamera (now : Rat) (down : List Text) : Options where
  installationId := none
  config := ⟨none, none, none, none⟩
  now := some now
  nodeStates := down.map fun nodeId => (nodeId, ⟨none, false, true, []⟩)
  nodes := [⟨nodeA, .number 4⟩, ⟨nodeB, .number 4⟩]
  workloads := [⟨cameraOne, none⟩]
  previous := .absent

/-- The plan of an installation that was never planned: its registry, without tokens. -/
def fromRegistry : StoredPlan where
  assignments := [⟨cameraOne, nodeA, .null, none⟩]
  revoked := []
  nextToken := some 0
  epoch := some 0

theorem fromRegistry_normalised : Normalised fromRegistry := by
  refine ⟨?_, ?_, nodup_singleton _, ?_, nofun⟩
  · intro assignment member
    rw [mem_singleton.mp member]
    exact ⟨rfl, nofun⟩
  · intro assignment member
    rw [mem_singleton.mp member]
    exact ⟨rfl, nofun⟩
  · intro assignment member
    rw [mem_singleton.mp member]
    exact Or.inl rfl

theorem fromRegistry_counted : Counted fromRegistry := by
  refine ⟨?_, ?_⟩
  · intro assignment member n token
    rw [mem_singleton.mp member] at token
    cases token
  · rintro n ⟨⟩
    exact ⟨0, Nat.cast_zero.symm⟩

/-- The first plan keeps the owner of the registry and gives it a token that it did not have; and
after the token 2 ^ 53 a double has no next one. -/
theorem first_plan_not_monotonic : (Normalised fromRegistry ∧
    ∃ plan, replan fromRegistry (oneCamera 0 []) = .ok plan ∧
      tokensAreMonotonic fromRegistry plan.stored = false) ∧
    Binary64.double (2 ^ 53 + 1) = 2 ^ 53 := by
  refine ⟨⟨fromRegistry_normalised, ?_⟩, by decide +kernel⟩
  have checked : ((replan fromRegistry (oneCamera 0 [])).toOption.any fun plan =>
      !tokensAreMonotonic fromRegistry plan.stored) = true := by decide +kernel
  cases planned : replan fromRegistry (oneCamera 0 []) with
  | error refusal =>
    rw [planned] at checked
    cases checked
  | ok plan =>
    rw [planned] at checked
    exact ⟨plan, rfl, by simpa [Except.toOption] using checked⟩

theorem registry_run_fenced : Fenced fromRegistry ∧
    issuedTokens fromRegistry [oneCamera 0 [], oneCamera 60000 [nodeA], oneCamera 120000 [nodeB]] =
      [1, 2, 3] :=
  ⟨replans_fenced fromRegistry fromRegistry_normalised fromRegistry_counted, by decide +kernel⟩

end DracVms.Scheduler
