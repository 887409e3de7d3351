import DracVms.Alarms.Lifecycle

namespace DracVms.Alarms

open List

open Json (Text field)
open Database
open KeyedList (lookup updateAt)
open Jobs (appendDelivery_history appendDelivery_snooze appendPushOutcome_history
  appendPushOutcome_snooze)

/-! How an alarm changes where the writes are orderly. -/

structure Evolves (row row' : AlarmInstance) : Prop where
  ordered : row.firstOccurredAt ≤ row.lastOccurredAt → row'.firstOccurredAt ≤ row'.lastOccurredAt
  resolved : row.status = .resolved → row'.status = .resolved
  history : transitionHistory row.metadata <+: transitionHistory row'.metadata

theorem Evolves.refl (row : AlarmInstance) : Evolves row row :=
  ⟨id, id, prefix_refl _⟩

theorem isLive_iff (alarm : AlarmInstance) : isLive alarm = true ↔ alarm.status ≠ .resolved := by
  unfold isLive
  cases alarm.status <;> decide

variable (now : Instant)

theorem update_status (user : Actor) (action : Action) (existing row : AlarmInstance)
    (resolved : row.status = .resolved) (calm : action.acknowledges = false) :
    (action.update now user existing row).status = .resolved := by
  cases action with
  | addNote note =>
    simp only [Action.update, addNote]
    split <;> exact resolved
  | resolve note => rfl
  | unsnooze note => exact resolved
  | acknowledge note | snooze minutes note => cases calm

theorem update_evolves (user : Actor) (action : Action) (existing row : AlarmInstance)
    (orderly : action.entry now user ≠ none → SameTrail existing.metadata row.metadata ∧
      (action.acknowledges = true → row.status ≠ .resolved)) :
    Evolves row (action.update now user existing row) := by
  obtain ⟨same, last, -⟩ := update_same now user action existing row
  cases adds : action.entry now user with
  | none =>
    rw [update_blank now user action existing row adds]
    exact Evolves.refl row
  | some entry =>
    obtain ⟨trail, unresolved⟩ := orderly (by rw [adds]; exact Option.some_ne_none _)
    refine ⟨?_, ?_, ?_⟩
    · intro ordered
      rw [same.first, last]
      exact ordered
    · intro resolved
      apply update_status now user action existing row resolved
      by_contra acknowledging
      exact unresolved (Bool.eq_true_of_not_eq_false acknowledging) resolved
    · rw [update_history now user action existing row entry adds, trail.1]
      exact prefix_append _ _

theorem replaceMetadata_evolves (metadata : Metadata) (row : AlarmInstance)
    (history : transitionHistory (some metadata) = transitionHistory row.metadata) :
    Evolves row (replaceMetadata metadata row) := by
  refine ⟨id, id, ?_⟩
  have same := history.symm
  exact ⟨[], (append_nil _).trans same⟩

theorem absorb_evolves (event : EventInput) (rule : AlarmRule) (existing row : AlarmInstance)
    (live : isLive existing = true) (later : row.firstOccurredAt ≤ event.occurredAt)
    (history : transitionHistory row.metadata <+: transitionHistory (some (eventMetadata event))) :
    Evolves row (absorb event rule existing row) := by
  obtain ⟨same, last, -, metadata⟩ := absorb_same event rule existing row
  refine ⟨?_, ?_, ?_⟩
  · intro _
    rw [same.first, last]
    exact later
  · intro resolved
    unfold absorb
    rw [if_neg ((isLive_iff existing).mp live)]
    exact resolved
  · rw [metadata]
    exact history

variable {s : Desk}

theorem changeOf_evolves {now : Instant} {operation : Pending} (based : operation.Based s.ids)
    (orderly : WriteOrderly s now operation) {row : AlarmInstance} (listed : row ∈ s.rows) :
    Evolves row (changeOf now operation row) := by
  cases operation with
  | process event read | create event source rule => exact Evolves.refl row
  | autoResolve event targets =>
    simp only [changeOf]
    split
    · exact ⟨id, fun _ => rfl, prefix_refl _⟩
    · exact Evolves.refl row
  | absorb event rule existing =>
    simp only [changeOf]
    split
    · rename_i here
      obtain ⟨later, history, -⟩ := orderly row listed here
      exact absorb_evolves event rule existing row based.2 later history
    · exact Evolves.refl row
  | act user action existing =>
    simp only [changeOf]
    split
    · rename_i here
      exact update_evolves now user action existing row
        fun writing => orderly writing row listed here
    · exact Evolves.refl row
  | deliver entry id metadata =>
    simp only [changeOf]
    split
    · rename_i here
      apply replaceMetadata_evolves
      rw [appendDelivery_history]
      exact (orderly row listed here).1
    · exact Evolves.refl row
  | receipt entry id metadata =>
    simp only [changeOf]
    split
    · rename_i here
      apply replaceMetadata_evolves
      rw [appendPushOutcome_history]
      exact (orderly row listed here).1
    · exact Evolves.refl row

theorem quieted_evolves (quietSeconds : ℕ) (row : AlarmInstance) :
    Evolves row (quieted now quietSeconds row) := by
  unfold quieted
  split
  · exact ⟨id, fun _ => rfl, prefix_refl _⟩
  · exact Evolves.refl row

variable {a : Step}

theorem change_evolves (accounts : Accounts s) (orderly : Orderly s a) {row : AlarmInstance}
    (listed : row ∈ s.rows) : Evolves row (change s a row) := by
  cases a with
  | report event read quiet =>
    simp only [change]
    split
    · exact quieted_evolves _ _ row
    · exact Evolves.refl row
  | quiet now quiet => exact quieted_evolves _ _ row
  | request user action id | deliver entry id | receipt entry id => exact Evolves.refl row
  | advance index now newId =>
    simp only [change]
    cases under : s.pending[index]? with
    | none => exact Evolves.refl row
    | some operation =>
      have based := accounts.based operation (List.mem_of_getElem? under)
      exact changeOf_evolves based (orderly operation under) listed

/-! The openings. -/

/-- What the orderly steps keep. -/
structure Lives (s : Desk) : Prop where
  accounts : Accounts s
  ordered : ∀ row ∈ s.rows, row.firstOccurredAt ≤ row.lastOccurredAt
  known : ∀ birth ∈ s.births, birth.alarmId ∈ s.ids
  born : ∀ birth ∈ s.births, ∀ row ∈ s.rows, row.id = birth.alarmId →
    row.firstOccurredAt = birth.occurredAt
  apart : s.births.Pairwise (NoRivals s.rows)

variable {s t : Desk}

theorem Moves.row (moves : Moves s a t) {row : AlarmInstance} (listed : row ∈ t.rows) :
    (∃ before ∈ s.rows, row = change s a before) ∨
      ∃ opening' ∈ opening s a, row = opening'.alarm := by
  rw [moves.rows] at listed
  rcases mem_append.mp listed with changed | created
  · obtain ⟨before, present, rfl⟩ := mem_map.mp changed
    exact Or.inl ⟨before, present, rfl⟩
  · obtain ⟨opening', present, rfl⟩ := mem_map.mp created
    exact Or.inr ⟨opening', Option.mem_toList.mp present, rfl⟩

theorem Moves.kept (moves : Moves s a t) {row : AlarmInstance} (listed : row ∈ s.rows) :
    change s a row ∈ t.rows := by
  rw [moves.rows]
  exact mem_append_left _ (mem_map_of_mem listed)

theorem live_before {row row' : AlarmInstance} (evolves : Evolves row row')
    (live : isLive row' = true) : isLive row = true := by
  rw [isLive_iff] at live ⊢
  intro resolved
  exact live (evolves.resolved resolved)

theorem rivals_before (accounts : Accounts s) (orderly : Orderly s a) {first second : AlarmInstance}
    (inFirst : first ∈ s.rows) (inSecond : second ∈ s.rows)
    (rivals : Rivals (change s a first) (change s a second)) : Rivals first second := by
  obtain ⟨liveFirst, liveSecond, cameraId, source, type⟩ := rivals
  have sameFirst := (change_same s a first).1
  have sameSecond := (change_same s a second).1
  rw [sameFirst.cameraId, sameSecond.cameraId] at cameraId
  rw [sameFirst.source, sameSecond.source] at source
  rw [sameFirst.type, sameSecond.type] at type
  exact ⟨live_before (change_evolves accounts orderly inFirst) liveFirst,
    live_before (change_evolves accounts orderly inSecond) liveSecond, cameraId, source, type⟩

theorem opening_apart (lives : Lives s) {opening' : Opening}
    (unabsorbed : ∀ row ∈ s.rows,
      absorbs opening'.event opening'.source opening'.rule.dedupWindowSeconds row = false)
    {birth : Birth} (known : birth ∈ s.births) {row : AlarmInstance} (listed : row ∈ s.rows)
    (named : row.id = birth.alarmId) (rivals : Rivals row opening'.alarm) :
    FarApart birth opening'.birth := by
  obtain ⟨live, -, cameraId, source, type⟩ := rivals
  have refused := unabsorbed row listed
  have camera : row.cameraId = some opening'.event.cameraId := cameraId
  have source' : row.source = opening'.source := source
  have type' : row.type = opening'.event.type := type
  simp only [absorbs, camera, source', type', live, decide_true, Bool.true_and,
    decide_eq_false_iff_not, not_le] at refused
  have ordered : (row.firstOccurredAt : ℤ) ≤ row.lastOccurredAt :=
    Int.ofNat_le.mpr (lives.ordered row listed)
  have born : (row.firstOccurredAt : ℤ) = birth.occurredAt :=
    congrArg Int.ofNat (lives.born birth known row listed named)
  show opening'.rule.dedupWindowSeconds * 1000 <
    ((birth.occurredAt : ℤ) - opening'.event.occurredAt).natAbs
  omega

theorem opening_orderly (orderly : Orderly s a) {opening' : Opening}
    (opens : opening s a = some opening') : ∀ row ∈ s.rows,
      absorbs opening'.event opening'.source opening'.rule.dedupWindowSeconds row = false := by
  cases a with
  | advance index now newId =>
    obtain ⟨operation, under, created⟩ := Option.bind_eq_some_iff.mp opens
    have writes := orderly operation under
    cases operation with
    | create event source rule =>
      cases created
      exact writes
    | _ => cases created
  | _ => cases opens

theorem step_lives (lives : Lives s) (orderly : Orderly s a) (taken : step s a = some t) :
    Lives t := by
  have moves := step_moves taken
  have accounts := lives.accounts
  have ids := moves.ids
  have births : ∀ birth ∈ t.births, birth ∈ s.births ∨
      ∃ opening' ∈ opening s a, birth = opening'.birth := by
    intro birth listed
    rw [moves.births] at listed
    rcases mem_append.mp listed with before | created
    · exact Or.inl before
    · obtain ⟨opening', present, rfl⟩ := mem_map.mp created
      exact Or.inr ⟨opening', Option.mem_toList.mp present, rfl⟩
  have unknown : ∀ opening' ∈ opening s a, ∀ birth ∈ s.births, opening'.id ≠ birth.alarmId := by
    intro opening' opens birth before same
    apply moves.fresh opening' opens
    rw [same]
    exact lives.known birth before
  have changedId : ∀ row ∈ s.rows, (change s a row).id ∈ s.ids := by
    intro row listed
    rw [(change_same s a row).1.id]
    exact mem_map_of_mem listed
  -- A row with the id of an earlier birth is a row of before, changed.
  have earlier : ∀ birth ∈ s.births, ∀ row ∈ t.rows, row.id = birth.alarmId →
      ∃ before ∈ s.rows, row = change s a before ∧ before.id = birth.alarmId := by
    intro birth known row listed named
    rcases moves.row listed with ⟨before, present, rfl⟩ | ⟨opening', opens, rfl⟩
    · exact ⟨before, present, rfl, by rw [← named, (change_same s a before).1.id]⟩
    · exact absurd named (unknown opening' opens birth known)
  refine ⟨step_accounts accounts taken, ?_, ?_, ?_, ?_⟩
  · intro row listed
    rcases moves.row listed with ⟨before, present, rfl⟩ | ⟨opening', -, rfl⟩
    · exact (change_evolves accounts orderly present).ordered (lives.ordered before present)
    · exact le_refl opening'.event.occurredAt
  · intro birth listed
    rw [ids]
    rcases births birth listed with before | ⟨opening', opens, rfl⟩
    · exact mem_append_left _ (lives.known birth before)
    · exact mem_append_right _ (mem_map_of_mem (Option.mem_toList.mpr opens))
  · intro birth listed row present named
    rcases births birth listed with before | ⟨opening', opens, rfl⟩
    · obtain ⟨older, inRows, rfl, same⟩ := earlier birth before row present named
      rw [(change_same s a older).1.first]
      exact lives.born birth before older inRows same
    · rcases moves.row present with ⟨older, inRows, rfl⟩ | ⟨other, opens', rfl⟩
      · apply absurd (changedId older inRows)
        rw [named]
        exact moves.fresh opening' opens
      · rw [Option.mem_def, Option.mem_def.mp opens] at opens'
        cases opens'
        rfl
  · rw [moves.births]
    apply pairwise_append.mpr
    refine ⟨?_, ?_, ?_⟩
    · apply lives.apart.imp_of_mem
      intro first second inFirst inSecond before row listed row' listed' named named' rivals
      obtain ⟨older, inRows, rfl, same⟩ := earlier first inFirst row listed named
      obtain ⟨older', inRows', rfl, same'⟩ := earlier second inSecond row' listed' named'
      exact before older inRows older' inRows' same same'
        (rivals_before accounts orderly inRows inRows' rivals)
    · cases opening s a with
      | none => exact List.Pairwise.nil
      | some opening' => exact pairwise_singleton _ _
    · intro birth before later created row listed row' listed' named named' rivals
      obtain ⟨opening', present, rfl⟩ := mem_map.mp created
      have opens := Option.mem_toList.mp present
      obtain ⟨older, inRows, rfl, same⟩ := earlier birth before row listed named
      rcases moves.row listed' with ⟨other, inRows', rfl⟩ | ⟨other, opens', rfl⟩
      · apply absurd (changedId other inRows')
        rw [named']
        exact moves.fresh opening' opens
      · rw [Option.mem_def, Option.mem_def.mp opens] at opens'
        cases opens'
        obtain ⟨live, born, cameraId, source, type⟩ := rivals
        have sameOlder := (change_same s a older).1
        rw [sameOlder.cameraId] at cameraId
        rw [sameOlder.source] at source
        rw [sameOlder.type] at type
        have live' := live_before (change_evolves accounts orderly inRows) live
        exact opening_apart lives (opening_orderly orderly (Option.mem_def.mp opens)) before inRows
          same ⟨live', born, cameraId, source, type⟩

/-! The snooze. -/

theorem update_snooze (user : Actor) (action : Action) (existing row : AlarmInstance)
    (orderly : action.entry now user ≠ none → SameTrail existing.metadata row.metadata ∧
      (action.acknowledges = true → row.status ≠ .resolved)) :
    snoozeOf (action.update now user existing row).metadata = snoozeOf row.metadata ∨
      (∃ note, action = .unsnooze note) ∨ ∃ minutes note, action = .snooze minutes note ∧
        snoozeOf (action.update now user existing row).metadata =
          some (snoozeDocument now user minutes note) := by
  have read : field (spread existing.metadata) snoozeKey = snoozeOf existing.metadata :=
    field_spread _ _ snoozeKey_named
  cases adds : action.entry now user with
  | none =>
    rw [update_blank now user action existing row adds]
    exact Or.inl rfl
  | some entry =>
    have trail := (orderly (by rw [adds]; exact Option.some_ne_none _)).1.2
    cases action with
    | acknowledge note | resolve note =>
      refine Or.inl ((appendTransition_snooze now _ _).trans ?_)
      rw [read, trail]
    | addNote note =>
      obtain ⟨added, solid, -⟩ := Option.map_eq_some_iff.mp adds
      simp only [Action.update, addNote, solid]
      refine Or.inl ((appendTransition_snooze now _ _).trans ?_)
      rw [read, trail]
    | snooze minutes note =>
      refine Or.inr (Or.inr ⟨minutes, note, rfl, ?_⟩)
      refine (appendTransition_snooze now _ _).trans ?_
      rw [Json.field_setField, if_pos rfl]
    | unsnooze note => exact Or.inr (Or.inl ⟨note, rfl⟩)

theorem change_snooze (orderly : Orderly s a) {row : AlarmInstance} (listed : row ∈ s.rows) :
    SnoozeKept s a row (change s a row) := by
  have calm : ∀ now quietSeconds,
      snoozeOf (quieted now quietSeconds row).metadata = snoozeOf row.metadata := by
    intro now quietSeconds
    unfold quieted
    split <;> rfl
  cases a with
  | report event read quiet =>
    simp only [change]
    split
    · exact Or.inl (calm _ _)
    · exact Or.inl rfl
  | quiet now quiet => exact Or.inl (calm _ _)
  | request user action id | deliver entry id | receipt entry id => exact Or.inl rfl
  | advance index now newId =>
    cases under : s.pending[index]? with
    | none =>
      simp only [change, under]
      exact Or.inl rfl
    | some operation =>
      have writes' := orderly operation under
      simp only [change, under, Option.elim_some]
      cases operation with
      | process event read | create event source rule => exact Or.inl rfl
      | autoResolve event targets =>
        simp only [changeOf]
        split <;> exact Or.inl rfl
      | absorb event rule existing =>
        simp only [changeOf]
        split
        · rename_i here
          have metadata := (absorb_same event rule existing row).2.2.2
          left
          rw [metadata]
          exact (writes' row listed here).2.2
        · exact Or.inl rfl
      | deliver entry id metadata =>
        simp only [changeOf]
        split
        · rename_i here
          exact Or.inl ((appendDelivery_snooze entry metadata).trans (writes' row listed here).2)
        · exact Or.inl rfl
      | receipt entry id metadata =>
        simp only [changeOf]
        split
        · rename_i here
          exact Or.inl ((appendPushOutcome_snooze entry metadata).trans (writes' row listed here).2)
        · exact Or.inl rfl
      | act user action existing =>
        simp only [changeOf]
        split
        · rename_i here
          rcases update_snooze now user action existing row
              (fun writing => writes' writing row listed here) with
            same | ⟨note, rfl⟩ | ⟨minutes, note, rfl, put⟩
          · exact Or.inl same
          · exact Or.inr (Or.inl ⟨user, note, now, index, newId, existing, rfl, under, here.symm⟩)
          · exact Or.inr (Or.inr ⟨user, minutes, note, now,
              ⟨index, newId, existing, rfl, under, here.symm⟩, put⟩)
        · exact Or.inl rfl

/-! The whole run. -/

/-- What every alarm of the one table has become in the other. -/
def Onward (s t : Desk) : Prop :=
  ∀ row ∈ s.rows, ∃ row' ∈ t.rows, row'.id = row.id ∧
    (row.status = .resolved → row'.status = .resolved) ∧
      transitionHistory row.metadata <+: transitionHistory row'.metadata

theorem Onward.refl (s : Desk) : Onward s s :=
  fun row listed => ⟨row, listed, rfl, id, prefix_refl _⟩

theorem Onward.trans {s t u : Desk} (first : Onward s t) (second : Onward t u) : Onward s u := by
  intro row listed
  obtain ⟨row', listed', same, resolved, history⟩ := first row listed
  obtain ⟨row'', listed'', same', resolved', history'⟩ := second row' listed'
  exact ⟨row'', listed'', same'.trans same, fun before => resolved' (resolved before),
    history.trans history'⟩

theorem step_onward (lives : Lives s) (orderly : Orderly s a) (taken : step s a = some t) :
    Onward s t := by
  intro row listed
  have evolves := change_evolves lives.accounts orderly listed
  exact ⟨change s a row, (step_moves taken).kept listed, (change_same s a row).1.id,
    evolves.resolved, evolves.history⟩

theorem write_recorded {id : Text} {user : Actor} {action : Action} {now : Instant}
    {entry : Metadata} (accounts : Accounts s) (writing : writes s a id user action now)
    (adds : action.entry now user = some entry) (taken : step s a = some t) :
    ∃ row ∈ t.rows, row.id = id ∧ entry ∈ transitionHistory row.metadata := by
  obtain ⟨index, newId, existing, rfl, under, rfl⟩ := writing
  have based := accounts.based _ (List.mem_of_getElem? under)
  obtain ⟨row, listed, same⟩ := mem_map.mp based
  refine ⟨change s _ row, (step_moves taken).kept listed, ?_, ?_⟩
  · rw [(change_same s _ row).1.id, same]
  · simp only [change, under, Option.elim_some, changeOf, if_pos same]
    rw [update_history now user action existing row entry adds]
    exact mem_append_right _ (mem_singleton_self entry)

theorem empty_lives : Lives .empty :=
  ⟨⟨nodup_nil, fun _ none => absurd none not_mem_nil,
    fun _ none => absurd none not_mem_nil, fun _ none => absurd none not_mem_nil⟩,
    fun _ none => absurd none not_mem_nil, fun _ none => absurd none not_mem_nil,
    fun _ none => absurd none not_mem_nil, List.Pairwise.nil⟩

/-- Where no write meets an alarm that has changed under it, no event is absorbed over what an
operator has written, and no action meets a resolved alarm, all that the life of an alarm promises
is kept. -/
theorem life_kept (steps : List Step) (allowed : Runs.Allowed step Orderly .empty steps) :
    LifeKept steps := by
  have preserves : Runs.Preserves step Orderly Lives :=
    fun s a t orderly lives taken => step_lives lives orderly taken
  have lives : ∀ n s, Runs.run step .empty (steps.take n) = some s → Lives s := by
    intro n s reached
    exact Runs.invariant_along step preserves .empty s steps n allowed empty_lives reached
  have onward : ∀ n m s t, n ≤ m → Runs.run step .empty (steps.take n) = some s →
      Runs.run step .empty (steps.take m) = some t → Onward s t :=
    fun n m s t later first second =>
      Runs.run_between step preserves Onward.refl (fun _ _ _ => Onward.trans)
        (fun s a t orderly lives taken => step_onward lives orderly taken) allowed empty_lives later
        first second
  refine ⟨fun n s reached => (lives n s reached).apart,
    fun n s reached => (lives n s reached).accounts.counted, ?_, ?_, ?_⟩
  · intro n m s t later first second row listed
    obtain ⟨row', listed', same, resolved, history⟩ := onward n m s t later first second row listed
    refine ⟨row', listed', same, ?_, history⟩
    intro before
    rw [resolved before]
    decide
  · intro n m s t a id user action now entry later first next writing adds second
    obtain ⟨u, middle⟩ : ∃ u, Runs.run step .empty (steps.take (n + 1)) = some u := by
      cases reached : Runs.run step .empty (steps.take (n + 1)) with
      | some u => exact ⟨u, rfl⟩
      | none =>
        rw [Runs.take_extends steps later, Runs.run_append, reached] at second
        cases second
    have taken : step s a = some u := by
      rw [take_add_one, next, Runs.run_append, first] at middle
      obtain ⟨v, stepped, same⟩ := Runs.run_cons step middle
      cases same
      exact stepped
    obtain ⟨row, listed, named, recorded⟩ :=
      write_recorded (lives n s first).accounts writing adds taken
    obtain ⟨row', listed', same, -, history⟩ :=
      onward (n + 1) m u t later middle second row listed
    exact ⟨row', listed', same.trans named, history.subset recorded⟩
  · intro n s t a reached next taken row listed
    have orderly := allowed.at_step step reached next
    exact ⟨change s a row, (step_moves taken).kept listed, (change_same s a row).1.id,
      change_snooze orderly listed⟩

/-- The look-up leaves nothing to be feared where nothing comes between it and the write. -/
theorem found_orderly {event : EventInput} {read : Surroundings} {source : AlarmSource}
    {rule : AlarmRule} (now : Instant)
    (found : processRead event read s.rows = some (.create event source rule)) :
    WriteOrderly s now (.create event source rule) := by
  unfold processRead at found
  split at found
  · cases found
  split at found
  · dsimp only at found
    split at found <;> cases found
  split at found
  · cases found
  split at found
  · cases found
  rename_i none_
  cases found
  intro row listed
  by_contra absorbed
  have kept : row ∈ s.rows.filter (absorbs event source rule.dedupWindowSeconds) :=
    mem_filter.mpr ⟨listed, Bool.not_eq_false _ ▸ absorbed⟩
  rw [findExisting, head?_eq_none_iff] at none_
  have sorted := (perm_insertionSort (fun a b : AlarmInstance =>
    b.lastOccurredAt ≤ a.lastOccurredAt) _).mem_iff.mpr kept
  rw [none_] at sorted
  cases sorted

/-! Runs of one alarm. -/

def crossing (eventId : Text) (occurredAt : Instant) : EventInput :=
  ⟨eventId, ['c'], "LINE_CROSSED".toList, "WARNING".toList, [], none, occurredAt⟩

def perimeterRule : AlarmRule := ⟨['r'], .p2, true, 60⟩

def watched : Surroundings := ⟨none, some perimeterRule, false, false⟩

def guardian : Actor := ⟨['u'], ['n']⟩

/-- An event comes in, and the alarm is opened. -/
def openingSteps : List Step :=
  [.report (crossing ['e'] 1000000) watched ⟨300, none⟩, .advance 0 0 ['a'], .advance 0 0 ['a']]

/-- The alarm absorbs another event, is acknowledged, is put to sleep and is notified about, one after
the other. -/
def calmRun : List Step :=
  openingSteps ++ [.report (crossing ['f'] 1000500) watched ⟨300, none⟩, .advance 0 0 [],
    .advance 0 0 [], .request guardian (.acknowledge none) ['a'], .advance 0 1001000 [],
    .request guardian (.snooze 15 none) ['a'], .advance 0 1002000 [],
    .deliver ⟨[], "push".toList, "ACCEPTED".toList, none, []⟩ ['a'], .advance 0 1003000 []]

theorem calmRun_kept : (Runs.run step .empty calmRun).isSome = true ∧ LifeKept calmRun := by
  refine ⟨rfl, life_kept calmRun ?_⟩
  refine .cons step trivial rfl (.cons step ?_ rfl (.cons step ?_ rfl ?_))
  · rintro operation ⟨⟩
    exact trivial
  · rintro operation ⟨⟩
    exact found_orderly 0 (show processRead (crossing ['e'] 1000000) watched _ = _ from rfl)
  refine .cons step trivial rfl (.cons step ?_ rfl (.cons step ?_ rfl ?_))
  · rintro operation ⟨⟩
    exact trivial
  · rintro operation ⟨⟩ row listed -
    cases mem_singleton.mp listed
    exact ⟨by decide, List.nil_prefix, rfl⟩
  refine .cons step trivial rfl (.cons step ?_ rfl ?_)
  · rintro operation ⟨⟩ - row listed -
    cases mem_singleton.mp listed
    exact ⟨⟨rfl, rfl⟩, fun _ => by decide⟩
  refine .cons step trivial rfl (.cons step ?_ rfl ?_)
  · rintro operation ⟨⟩ - row listed -
    cases mem_singleton.mp listed
    exact ⟨⟨rfl, rfl⟩, fun _ => by decide⟩
  refine .cons step trivial rfl (.cons step ?_ rfl trivial)
  rintro operation ⟨⟩ row listed -
  cases mem_singleton.mp listed
  exact ⟨rfl, rfl⟩

/-- Two events look for an alarm before either of them has opened one. -/
def racingRun : List Step :=
  [.report (crossing ['e'] 1000000) watched ⟨300, none⟩,
    .report (crossing ['f'] 1000500) watched ⟨300, none⟩,
    .advance 0 0 ['a'], .advance 1 0 ['b'], .advance 0 0 ['a'], .advance 0 0 ['b']]

/-- The alarm is resolved, and acknowledged after that. -/
def reopenedRun : List Step :=
  openingSteps ++ [.request guardian (.resolve none) ['a'], .advance 0 1001000 [],
    .request guardian (.acknowledge none) ['a'], .advance 0 1002000 []]

/-- The alarm is acknowledged, and the next event is absorbed by it. -/
def forgottenRun : List Step :=
  openingSteps ++ [.request guardian (.acknowledge none) ['a'], .advance 0 1001000 [],
    .report (crossing ['f'] 1002000) watched ⟨300, none⟩, .advance 0 0 [], .advance 0 0 []]

def crossed : AlarmInstance := opened (crossing ['e'] 1000000) .analytics perimeterRule ['a']

def deskAfter (steps : List Step) (n : ℕ) : Desk :=
  (Runs.run step .empty (steps.take n)).getD .empty

/-- Each of the three promises is broken by a run of its own. -/
theorem life_broken :
    ¬LifeKept racingRun ∧ ¬LifeKept reopenedRun ∧ ¬LifeKept forgottenRun := by
  refine ⟨fun kept => ?_, fun kept => ?_, fun kept => ?_⟩
  · have apart := kept.apart 6 (deskAfter racingRun 6) rfl
    have pair := (pairwise_cons.mp apart).1 _ (mem_singleton_self _)
    have far := pair _ mem_cons_self _ (mem_cons_of_mem _ (mem_singleton_self _))
      rfl rfl ⟨rfl, rfl, rfl, rfl, rfl⟩
    unfold FarApart at far
    exact absurd far (by decide)
  · have rows : (deskAfter reopenedRun 5).rows =
        [resolve 1001000 guardian none crossed crossed] := rfl
    have statuses : (deskAfter reopenedRun 7).rows.map AlarmInstance.status = [.acked] := rfl
    obtain ⟨row', listed', -, unacknowledged, -⟩ := kept.later 5 7 (deskAfter reopenedRun 5)
      (deskAfter reopenedRun 7) (by decide) rfl rfl _ (by rw [rows]; exact mem_cons_self)
    have acked := mem_map_of_mem (f := AlarmInstance.status) listed'
    rw [statuses, mem_singleton] at acked
    exact unacknowledged rfl acked
  · have histories : (deskAfter forgottenRun 8).rows.map
        (fun row => transitionHistory row.metadata) = [[]] := rfl
    have rows : (deskAfter forgottenRun 5).rows =
        [acknowledge 1001000 guardian none crossed crossed] := rfl
    obtain ⟨row', listed', -, -, history⟩ := kept.later 5 8 (deskAfter forgottenRun 5)
      (deskAfter forgottenRun 8) (by decide) rfl rfl _ (by rw [rows]; exact mem_cons_self)
    have empty := mem_map_of_mem
      (f := fun row : AlarmInstance => transitionHistory row.metadata) listed'
    rw [histories, mem_singleton] at empty
    rw [empty] at history
    have longer := history.length_le
    exact absurd longer (by decide)

end DracVms.Alarms
