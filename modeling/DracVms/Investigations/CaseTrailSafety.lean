import DracVms.Investigations.CaseTrail

namespace DracVms.Investigations

open List

open Json (Text)
open Database
open Alarms (trimmed)
open Protection (camposDe legalHold)

/-! What every step keeps. -/

/-- The columns that are never written again. -/
structure SameItem (item row : Item) : Prop where
  id : row.id = item.id
  type : row.type = item.type
  investigationId : row.investigationId = item.investigationId
  eventId : row.eventId = item.eventId
  createdAt : row.createdAt = item.createdAt

theorem Fate.same {s : System} {a : Step} {item row : Item} (fate : Fate s item a (some row)) :
    SameItem item row := by
  cases fate with
  | kept a | noted now user notes reached => exact ⟨rfl, rfl, rfl, rfl, rfl⟩
  | reviewed now user decision reason metadata request privileged stated =>
    exact ⟨rfl, rfl, rfl, rfl, rfl⟩
  | processed a metadata package work => exact ⟨rfl, rfl, rfl, rfl, rfl⟩

section Kept

variable {uuids : Uuids} {s t : System} {a : Step}

theorem identified_empty : Identified uuids System.empty :=
  ⟨nodup_nil, (fun item listed => by cases listed), (fun job listed => by cases listed)⟩

theorem Moves.identified (moves : Moves uuids s a t) (identified : Identified uuids s) :
    Identified uuids t := by
  refine ⟨moves.distinct, moves.known, ?_⟩
  intro job listed
  rcases moves.jobs job listed with before | ⟨item, present, named, package⟩
  · obtain ⟨only, k, below, drawn⟩ := identified.jobs job before
    refine ⟨?_, k, lt_of_lt_of_le below moves.drawn, drawn⟩
    intro row present named
    rcases moves.comes row present with ⟨item, old, fate⟩ | ⟨-, j, above, fresh⟩
    · have same := fate.same
      rw [same.type]
      exact only item old (same.id.symm.trans named)
    · have equal : j = k := uuids.distinct (fresh.symm.trans (named.trans drawn))
      omega
  · obtain ⟨k, below, drawn⟩ := moves.known item present
    refine ⟨?_, k, below, named.symm.trans drawn⟩
    intro row listed' named'
    rw [KeyedList.eq_of_key moves.distinct listed' present (named'.trans named.symm)]
    exact package

/-! The approvals. -/

/-- An approved request was approved by an administrator, and so was that of each package. -/
structure Approvals (s : System) : Prop where
  requests : ∀ item ∈ s.items, item.type = exportRequest →
    hasStatus approved item.metadata = true → ApprovedByAdmin s.calls item.id
  packages : ∀ item ∈ s.items, item.type = exportPackage → ExportApproved s.calls item

theorem ExportApproved.of_same {calls : List Call} {item row : Item} (same : SameItem item row)
    (approved : ExportApproved calls item) : ExportApproved calls row := by
  obtain ⟨later, earlier, now, user, requestId, reason, split, named, admin⟩ := approved
  refine ⟨later, earlier, now, user, requestId, reason, ?_, same.eventId.trans named, admin⟩
  rw [same.investigationId]
  exact split

variable {item : Item}

theorem ExportApproved.cons {calls : List Call} (call : Call) (approved : ExportApproved calls item) :
    ExportApproved (call :: calls) item := by
  obtain ⟨later, earlier, now, user, requestId, reason, split, named, admin⟩ := approved
  refine ⟨call :: later, earlier, now, user, requestId, reason, ?_, named, admin⟩
  rw [split]
  rfl

theorem exportRequest_served : exportRequest ∈ serverOwnedTypes := by decide

theorem exportPackage_served : exportPackage ∈ serverOwnedTypes := by decide

theorem legalHold_served : legalHold ∈ serverOwnedTypes := by decide

theorem Moves.requests (moves : Moves uuids s a t) (approvals : Approvals s) :
    ∀ row ∈ t.items, row.type = exportRequest → hasStatus approved row.metadata = true →
      ApprovedByAdmin t.calls row.id := by
  intro row listed type stated
  have before : ∀ item ∈ s.items, Fate s item a (some row) →
      ApprovedByAdmin s.calls row.id ∨ ∃ call, a = .call call ∧ call.reviews row.id = true := by
    intro item present fate
    cases fate with
    | kept a => exact Or.inl (approvals.requests row present type stated)
    | noted now user notes reached => exact Or.inl (approvals.requests item present type stated)
    | reviewed now user decision reason metadata request privileged decided =>
      exact Or.inr ⟨_, rfl, decide_eq_true rfl⟩
    | processed a metadata package work =>
      exact absurd (package.symm.trans type) (by decide)
  have known : ApprovedByAdmin s.calls row.id ∨
      ∃ call, a = .call call ∧ call.reviews row.id = true := by
    rcases moves.comes row listed with ⟨item, present, fate⟩ | ⟨origin, -⟩
    · exact before item present fate
    · cases origin with
      | free a row client => exact absurd (type ▸ exportRequest_served) client
      | trail a row noted =>
        rw [type] at noted
        exact absurd noted (by decide)
      | request a row type' pending => exact absurd (stated.symm.trans pending) (by decide)
      | package now user requestId reason row type' named request listed' same requested stated' =>
        exact absurd (type'.symm.trans type) (by decide)
      | hold now user investigationId dto id =>
        have apart : legalHold ≠ exportRequest := by decide
        exact absurd type apart
  rcases moves.calls with ⟨same, worker⟩ | ⟨call, rfl, answered, -, reviews⟩
  · rw [same]
    rcases known with admin | ⟨call, made, -⟩
    · exact admin
    · exact absurd made (worker call)
  · rw [answered]
    cases reviewed : call.reviews row.id with
    | true => exact ⟨call, List.find?_cons_of_pos reviewed, reviews row listed reviewed stated⟩
    | false =>
      rcases known with ⟨review, located, approves⟩ | ⟨other, made, asks⟩
      · refine ⟨review, ?_, approves⟩
        rw [List.find?_cons_of_neg (by simp [reviewed])]
        exact located
      · cases made
        exact absurd (asks.symm.trans reviewed) (by decide)

theorem Moves.packages (moves : Moves uuids s a t) (approvals : Approvals s) :
    ∀ row ∈ t.items, row.type = exportPackage → ExportApproved t.calls row := by
  intro row listed type
  rcases moves.comes row listed with ⟨item, present, fate⟩ | ⟨origin, -⟩
  · have same := fate.same
    have old := (approvals.packages item present (same.type.symm.trans type)).of_same same
    rcases moves.calls with ⟨calls, -⟩ | ⟨call, -, calls, -⟩
    · rw [calls]
      exact old
    · rw [calls]
      exact old.cons call
  · cases origin with
    | free a row client => exact absurd (type ▸ exportPackage_served) client
    | trail a row noted =>
      rw [type] at noted
      exact absurd noted (by decide)
    | request a row type' pending => exact absurd (type'.symm.trans type) (by decide)
    | hold now user investigationId dto id =>
      have apart : legalHold ≠ exportPackage := by decide
      exact absurd type apart
    | package now user requestId reason row type' named request listed' same requested stated =>
      rcases moves.calls with ⟨-, worker⟩ | ⟨call, made, calls, -⟩
      · exact absurd rfl (worker _)
      · cases made
        have admin := approvals.requests request listed' requested stated
        rw [same] at admin
        exact ⟨[], s.calls, now, user, requestId, reason, calls, named, admin⟩

/-! The trail, where the steps are orderly. -/

theorem Fate.stays {after : Option Item} (fate : Fate s item a after) (orderly : Orderly s a)
    (listed : item ∈ s.items) (served : item.type ∈ serverOwnedTypes) :
    ∃ metadata, after = some { item with metadata := metadata } ∧
      (¬DedicatedTo item a → metadata = item.metadata) := by
  cases fate with
  | kept a => exact ⟨item.metadata, rfl, fun _ => rfl⟩
  | removed now user reached free =>
    exact absurd served (orderly reached free item listed rfl rfl).1
  | noted now user notes reached =>
    have same := orderly reached item listed rfl rfl served
    refine ⟨item.metadata, ?_, fun _ => rfl⟩
    rw [← same]
  | reviewed now user decision reason metadata request privileged stated =>
    exact ⟨_, rfl, fun other => absurd ⟨request, rfl⟩ other⟩
  | processed a metadata package work => exact ⟨_, rfl, fun other => absurd work other⟩

theorem Moves.stay (moves : Moves uuids s a t) (orderly : Orderly s a) (listed : item ∈ s.items)
    (served : item.type ∈ serverOwnedTypes) :
    ∃ metadata, { item with metadata := metadata } ∈ t.items ∧
      (¬DedicatedTo item a → metadata = item.metadata) := by
  obtain ⟨after, fate, present⟩ := moves.stays item listed
  obtain ⟨metadata, rfl, untouched⟩ := fate.stays orderly listed served
  exact ⟨metadata, present _ rfl, untouched⟩

theorem hold_undedicated (type : item.type = legalHold) : ¬DedicatedTo item a := by
  intro dedicated
  cases a with
  | call call =>
    obtain ⟨now, user, operation⟩ := call
    cases operation with
    | reviewExportRequest investigationId requestId decision reason =>
      exact absurd (type.symm.trans dedicated.1) (by decide)
    | _ => exact dedicated
  | process index now signing written => exact absurd (type.symm.trans dedicated) (by decide)
  | retryAllPendingSignatures now signing written =>
    exact absurd (type.symm.trans dedicated) (by decide)

/-! The holds. -/

def SaysHold (hold : LegalHold) (item : Item) : Prop :=
  LegalHold.ofFields (camposDe item.metadata) = hold

/-- The row of the hold is there, and whatever is not older than it says the same. -/
def Newest (s : System) (investigationId : Text) (hold : LegalHold) : Prop :=
  ∃ row ∈ s.items, row.investigationId = investigationId ∧ row.type = legalHold ∧
    SaysHold hold row ∧ ∀ other ∈ s.items, other.investigationId = investigationId →
      other.type = legalHold → other.createdAt < row.createdAt ∨ SaysHold hold other

variable {investigationId : Text} {hold : LegalHold}

theorem Newest.active (newest : Newest s investigationId hold) :
    s.store.getActiveLegalHold investigationId = hold := by
  obtain ⟨row, listed, here, type, agrees, others⟩ := newest
  have inList : row ∈ s.store.items.filter fun item =>
      item.investigationId = investigationId && item.type = legalHold :=
    mem_filter.mpr ⟨listed, by simp [here, type]⟩
  simp only [Store.getActiveLegalHold]
  cases latest : (s.store.items.filter fun item =>
      item.investigationId = investigationId && item.type = legalHold).argmax
        fun item => item.createdAt with
  | none =>
    rw [argmax_eq_none.mp latest] at inList
    cases inList
  | some item =>
    have upper : row.createdAt ≤ item.createdAt :=
      le_of_mem_argmax (f := fun item : Item => item.createdAt) inList latest
    obtain ⟨present, fits⟩ := mem_filter.mp (argmax_mem latest)
    simp only [Bool.and_eq_true, decide_eq_true_eq] at fits
    rcases others item present fits.1 fits.2 with older | same
    · exact absurd upper (not_le_of_gt older)
    · exact same

/-- The last hold of each case is in force, and what it lists is there. -/
def HoldsStand (s : System) : Prop :=
  ∀ investigationId hold, lastHold s.calls investigationId = some hold → hold.enabled = true →
    Newest s investigationId hold ∧ ∀ id ∈ hold.itemIds, ∃ item ∈ s.items, item.id = id

theorem HoldsStand.kept (stand : HoldsStand s) : HoldsKept s := by
  intro investigationId hold last enabled
  obtain ⟨newest, present⟩ := stand investigationId hold last enabled
  exact ⟨newest.active, present⟩

section

variable (moves : Moves uuids s a t) (orderly : Orderly s a)

include moves orderly

theorem Moves.listed_stays (stand : HoldsStand s)
    (last : lastHold s.calls investigationId = some hold) (enabled : hold.enabled = true)
    (listed : item ∈ s.items) (held : item.id ∈ hold.itemIds) :
    ∃ row ∈ t.items, row.id = item.id := by
  obtain ⟨after, fate, present⟩ := moves.stays item listed
  cases after with
  | some row => exact ⟨row, present row rfl, fate.same.id⟩
  | none =>
    cases fate with
    | removed now user reached free =>
      exfalso
      by_cases own : item.investigationId = investigationId
      · have active := (stand investigationId hold last enabled).1.active
        rw [own] at free
        simp [isHeld, active, enabled, held] at free
      · exact (orderly reached free item listed rfl rfl).2
          ⟨investigationId, hold, Ne.symm own, last, enabled, held⟩

theorem Moves.newest_stays (newest : Newest s investigationId hold)
    (unset : ∀ call, a = .call call → call.hold investigationId = none) :
    Newest t investigationId hold := by
  obtain ⟨row, listed, here, type, agrees, others⟩ := newest
  obtain ⟨metadata, stays, untouched⟩ := moves.stay orderly listed (type ▸ legalHold_served)
  have same := untouched (hold_undedicated type)
  subst same
  refine ⟨row, stays, here, type, agrees, ?_⟩
  intro other present case_ type'
  rcases moves.comes other present with ⟨item, old, fate⟩ | ⟨origin, -⟩
  · have same := fate.same
    have served : item.type ∈ serverOwnedTypes := by
      rw [← same.type, type']
      exact legalHold_served
    obtain ⟨metadata, after, untouched⟩ := fate.stays orderly old served
    cases after
    have kept := untouched (hold_undedicated type')
    rcases others item old case_ type' with older | agrees'
    · exact Or.inl older
    · right
      rw [kept]
      exact agrees'
  · cases origin with
    | free a row client => exact absurd (type' ▸ legalHold_served) client
    | trail a row noted =>
      rw [type'] at noted
      exact absurd noted (by decide)
    | request a row type'' pending => exact absurd (type''.symm.trans type') (by decide)
    | package now user requestId reason row type'' named request listed' same requested stated =>
      exact absurd (type''.symm.trans type') (by decide)
    | hold now user other dto id =>
      have none_ := unset _ rfl
      simp only [Call.hold] at none_
      split at none_
      · cases none_
      · rename_i elsewhere
        exact absurd case_ elsewhere

theorem Moves.newest_set {call : Call} (made : a = .call call)
    (asked : call.hold investigationId = some hold) (enabled : hold.enabled = true)
    (reached : Reaches s call.user investigationId) {id : Text}
    (written : (holdDraft call.now call.user investigationId hold).row id call.now ∈ t.items) :
    Newest t investigationId hold ∧ ∀ id ∈ hold.itemIds, ∃ item ∈ t.items, item.id = id := by
  obtain ⟨now, user, operation⟩ := call
  cases operation with
  | setLegalHold id' dto =>
    simp only [Call.hold] at asked
    split at asked
    · rename_i same
      subst same
      cases asked
      subst made
      obtain ⟨exist, earlier⟩ := orderly reached enabled
      constructor
      · refine ⟨_, written, rfl, rfl, ofFields_document _ _ _, ?_⟩
        intro other present case_ type
        rcases moves.comes other present with ⟨item, old, fate⟩ | ⟨origin, -⟩
        · have same := fate.same
          left
          rw [same.createdAt]
          exact earlier item old (same.investigationId.symm.trans case_) (same.type.symm.trans type)
        · cases origin with
          | free a row client => exact absurd (type ▸ legalHold_served) client
          | trail a row noted =>
            rw [type] at noted
            exact absurd noted (by decide)
          | request a row type' pending => exact absurd (type'.symm.trans type) (by decide)
          | hold now user other dto id => exact Or.inr (ofFields_document _ _ _)
      · intro id listed
        obtain ⟨item, old, rfl⟩ := exist id listed
        obtain ⟨after, fate, present⟩ := moves.stays item old
        cases after with
        | some row => exact ⟨row, present row rfl, fate.same.id⟩
        | none => cases fate
    · cases asked
  | _ => cases asked

theorem Moves.holds (stand : HoldsStand s) : HoldsStand t := by
  have carried : ∀ investigationId hold, lastHold s.calls investigationId = some hold →
      hold.enabled = true → (∀ call, a = .call call → call.hold investigationId = none) →
      Newest t investigationId hold ∧ ∀ id ∈ hold.itemIds, ∃ item ∈ t.items, item.id = id := by
    intro investigationId hold last enabled unset
    obtain ⟨newest, exist⟩ := stand investigationId hold last enabled
    refine ⟨moves.newest_stays orderly newest unset, ?_⟩
    intro id listed
    obtain ⟨item, old, rfl⟩ := exist id listed
    exact moves.listed_stays orderly stand last enabled old listed
  intro investigationId hold last enabled
  rcases moves.calls with ⟨same, worker⟩ | ⟨call, made, answered, sets, -⟩
  · rw [same] at last
    exact carried investigationId hold last enabled fun call made => absurd made (worker call)
  · rw [answered, lastHold, List.findSome?_cons] at last
    cases asked : call.hold investigationId with
    | none =>
      rw [asked] at last
      apply carried investigationId hold last enabled
      intro other made'
      rw [made] at made'
      cases made'
      exact asked
    | some given =>
      rw [asked] at last
      cases last
      obtain ⟨reached, id, written⟩ := sets investigationId hold asked
      exact moves.newest_set orderly made asked enabled reached written

end

end Kept
/-! The runs. -/

section Runs

open Runs (run run_cons Allowed)

variable {uuids : Uuids}

/-- What no order of the steps can spoil. -/
def Filed (uuids : Uuids) (s : System) : Prop := Identified uuids s ∧ Approvals s

theorem approvals_empty : Approvals System.empty :=
  ⟨(fun item listed => by cases listed), (fun item listed => by cases listed)⟩

theorem step_filed {s t : System} {a : Step} (filed : Filed uuids s)
    (taken : step uuids s a = some t) : Filed uuids t := by
  rcases step_moves filed.1 taken with rfl | moves
  · exact filed
  · exact ⟨moves.identified filed.1, moves.requests filed.2, moves.packages filed.2⟩

variable {steps : List Step}

theorem run_filed {s : System} (reached : run (step uuids) .empty steps = some s) : Filed uuids s :=
  Runs.run_invariant (step uuids) (fun _ _ _ _ filed taken => step_filed filed taken) .empty s steps
    (Runs.allowed_always _ _ _) ⟨identified_empty, approvals_empty⟩ reached

theorem packages_approved {s : System} (reached : run (step uuids) .empty steps = some s) :
    ∀ item ∈ s.items, item.type = exportPackage → ExportApproved s.calls item :=
  (run_filed reached).2.packages

theorem step_holds {s t : System} {a : Step} (orderly : Orderly s a)
    (both : Filed uuids s ∧ HoldsStand s) (taken : step uuids s a = some t) :
    Filed uuids t ∧ HoldsStand t := by
  refine ⟨step_filed both.1 taken, ?_⟩
  rcases step_moves both.1.1 taken with rfl | moves
  · exact both.2
  · exact moves.holds orderly both.2

theorem run_holds {s : System} (orderly : Allowed (step uuids) Orderly .empty steps)
    (reached : run (step uuids) .empty steps = some s) : HoldsStand s := by
  have starts : HoldsStand System.empty := by
    intro investigationId hold last
    cases last
  exact (Runs.run_invariant (step uuids) (fun _ _ _ allowed both taken =>
    step_holds allowed both taken) .empty s steps orderly
    ⟨⟨identified_empty, approvals_empty⟩, starts⟩ reached).2

theorem dedicated_metadata (item : Item) (metadata : Option Metadata) (a : Step) :
    DedicatedTo { item with metadata := metadata } a ↔ DedicatedTo item a := by
  cases a with
  | call call =>
    obtain ⟨now, user, operation⟩ := call
    cases operation <;> exact Iff.rfl
  | process index now signing written | retryAllPendingSignatures now signing written =>
    exact Iff.rfl

theorem rest_kept {rest : List Step} {s t : System} (filed : Filed uuids s)
    (orderly : Allowed (step uuids) Orderly s rest) (reached : run (step uuids) s rest = some t)
    {item : Item} (listed : item ∈ s.items) (served : item.type ∈ serverOwnedTypes) :
    ∃ metadata, { item with metadata := metadata } ∈ t.items ∧
      ((∀ a ∈ rest, ¬DedicatedTo item a) → metadata = item.metadata) := by
  induction rest generalizing s item with
  | nil =>
    cases reached
    exact ⟨item.metadata, listed, fun _ => rfl⟩
  | cons a rest ih =>
    obtain ⟨u, taken, later⟩ := run_cons (step uuids) reached
    have first : ∃ metadata, { item with metadata := metadata } ∈ u.items ∧
        (¬DedicatedTo item a → metadata = item.metadata) := by
      rcases step_moves filed.1 taken with rfl | moves
      · exact ⟨item.metadata, listed, fun _ => rfl⟩
      · exact moves.stay orderly.1 listed served
    obtain ⟨metadata, present, kept⟩ := first
    obtain ⟨last, present', kept'⟩ := ih (step_filed filed taken) (orderly.2 u taken) later
      present served
    refine ⟨last, present', ?_⟩
    intro others
    rw [kept' fun b inRest dedicated => others b (mem_cons_of_mem _ inRest)
      ((dedicated_metadata item metadata b).mp dedicated)]
    exact kept (others a mem_cons_self)

/-- Where the steps are orderly, the trail of every case is kept. -/
theorem caseTrail_kept (uuids : Uuids) (steps : List Step)
    (orderly : Allowed (step uuids) Orderly .empty steps) : CaseTrailKept uuids steps := by
  have upTo : ∀ n, Allowed (step uuids) Orderly .empty (steps.take n) := by
    intro n
    exact Runs.allowed_take (step uuids) .empty steps n orderly
  refine ⟨?_, fun n s reached => (run_holds (upTo n) reached).kept,
    fun n s reached => packages_approved reached⟩
  intro n m s t later first second item listed served
  have parts := Runs.take_extends steps later
  have whole := upTo m
  rw [parts] at second whole
  rw [Runs.run_append, first] at second
  exact rest_kept (run_filed first) (Runs.allowed_suffix (step uuids) _ _ whole first) second listed
    served

end Runs

/-! A case with a hold. -/

def letters : Uuids where
  draw k := List.replicate (k + 1) 'u'
  distinct a b same := by
    have lengths := congrArg List.length same
    rw [length_replicate, length_replicate] at lengths
    omega

def owner : User := ⟨⟨['o'], .operator⟩, "owner".toList⟩

def evidence : CreateInvestigationItemDto where
  type := "snapshot".toList
  label := "gate".toList
  cameraId := none
  cameraName := none
  eventId := none
  recordingId := none
  timestamp := 0
  notes := none
  metadata := none
  typeShort := by decide
  typeFree := by decide
  labelShort := by decide
  notesShort := by simp

def holdBody : LegalHoldBody where
  enabled := some (.atom (.bool true))
  reason := none
  recordingIds := none
  clipIds := none
  itemIds := some (textList [letters.draw 2])

def caseId : Text := letters.draw 0

/-- The owner of a case adds an item and puts it under a hold. -/
def holdRun : List Step :=
  [.call ⟨1000, owner, .create "case".toList none none⟩,
    .call ⟨2000, owner, .addItem caseId evidence⟩,
    .call ⟨3000, owner, .setLegalHold caseId holdBody⟩]

def systemAfter (steps : List Step) : System :=
  (Runs.run (step letters) .empty steps).getD .empty

theorem systemAfter_reached {steps : List Step}
    (taken : (Runs.run (step letters) .empty steps).isSome = true) :
    Runs.run (step letters) .empty steps = some (systemAfter steps) := by
  obtain ⟨s, reached⟩ := Option.isSome_iff_exists.mp taken
  rw [systemAfter, reached]
  rfl

/-- The removal of an item under the hold is refused. -/
theorem heldRun_kept : CaseTrailKept letters
    (holdRun ++ [.call ⟨4000, owner, .removeItem caseId (letters.draw 2)⟩]) := by
  apply caseTrail_kept
  refine ⟨trivial, fun t taken => ?_⟩
  cases taken
  refine ⟨trivial, fun t taken => ?_⟩
  cases taken
  refine ⟨?_, fun t taken => ?_⟩
  · intro _ _
    constructor
    · intro id listed
      rw [show id = letters.draw 2 from mem_singleton.mp listed]
      exact ⟨_, mem_cons_of_mem _ mem_cons_self, rfl⟩
    · intro item listed _ type
      have types : ∀ row ∈ (systemAfter (holdRun.take 2)).items, row.type ≠ legalHold := by
        decide +kernel
      exact absurd type (types item listed)
  · cases taken
    refine ⟨?_, fun _ _ => trivial⟩
    intro _ free
    have held : isHeld (systemAfter holdRun).store caseId (letters.draw 2) = true := by
      decide +kernel
    exact absurd (free.symm.trans held) (by decide)

def removalRun : List Step :=
  holdRun ++ [.call ⟨4000, owner, .removeItem caseId (letters.draw 4)⟩]

def rewriteRun : List Step :=
  holdRun ++ [.call ⟨4000, owner, .updateItem caseId (letters.draw 1) (some "nothing".toList)⟩]

/-- The owner may remove the hold itself, and may write other notes into the trail. -/
theorem caseTrail_broken :
    ¬CaseTrailKept letters removalRun ∧ ¬CaseTrailKept letters rewriteRun := by
  constructor
  · intro kept
    have last : lastHold (systemAfter removalRun).calls caseId = some holdBody.payload := by
      decide +kernel
    have reached : Runs.run (step letters) .empty (removalRun.take 4) = some _ :=
      systemAfter_reached (by decide +kernel)
    obtain ⟨active, -⟩ := kept.held 4 _ reached caseId _ last rfl
    have inactive : ((systemAfter removalRun).store.getActiveLegalHold caseId).enabled = false := by
      decide +kernel
    have enabled := congrArg LegalHold.enabled active
    exact absurd (inactive.symm.trans enabled) (by decide)
  · intro kept
    have made : ∃ item ∈ (systemAfter (rewriteRun.take 1)).items, item.id = letters.draw 1 ∧
        item.notes = none ∧ item.type = activityType := by decide +kernel
    have written : ∀ row ∈ (systemAfter (rewriteRun.take 4)).items, row.id = letters.draw 1 →
        row.notes ≠ none := by decide +kernel
    have first : Runs.run (step letters) .empty (rewriteRun.take 1) = some _ :=
      systemAfter_reached (by decide +kernel)
    have second : Runs.run (step letters) .empty (rewriteRun.take 4) = some _ :=
      systemAfter_reached (by decide +kernel)
    obtain ⟨item, listed, named, unwritten, type⟩ := made
    obtain ⟨metadata, present, -⟩ := kept.trail 1 4 _ _ (by decide) first second item listed
      (by rw [type]; decide)
    exact written _ present named unwritten

end DracVms.Investigations
