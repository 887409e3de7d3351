import DracVms.Central.Datastore

namespace DracVms.Datastore

open List KeyedTable

open Json (Text)
open JsString (Unicode)

section Recovery

variable {Payload : Type} [Unicode] [Postgres Payload] (collation : Collation)
  (legacy : Document Payload)

/-! With a database that works. -/

theorem Recovers.of_step {s t : System Payload} {a : Step Payload}
    (healthy : a = .call ∨ a = .advance true) (taken : step legacy s a = some t)
    (later : Recovers collation legacy t) : Recovers collation legacy s := by
  obtain ⟨steps, others, u, reached, answers⟩ := later
  refine ⟨a :: steps, ?_, u, ?_, answers⟩
  · intro b listed
    rcases mem_cons.mp listed with same | deeper
    · rw [same]
      exact healthy
    · exact others b deeper
  · show (step legacy s a).bind _ = some u
    rw [taken]
    exact reached

variable (s : System Payload)

theorem recovers_resolved (resolved : s.initPromise = .resolved) : Recovers collation legacy s := by
  refine ⟨[], ?_, s, rfl, ?_, ?_⟩
  · intro a listed
    cases listed
  · unfold load
    rw [resolved]
    cases s.mode with
    | pg | dual => rfl
  · intro db fits
    unfold step
    rw [resolved]
    dsimp only
    rw [fits]
    rfl

omit [Postgres Payload] in
theorem recordRows_subset {installations installations' : List (Text × Installation Payload)}
    {users users' : List (Text × User Payload)} {sessions sessions' : List (Text × Payload)}
    {events events' : List (Text × AuditEvent Payload)} (first : installations ⊆ installations')
    (second : users ⊆ users') (third : sessions ⊆ sessions') (last : events ⊆ events') :
    recordRows installations users sessions events ⊆
      recordRows installations' users' sessions' events' := by
  unfold recordRows
  apply append_subset.mpr
  refine ⟨append_subset.mpr ⟨append_subset.mpr ⟨?_, ?_⟩, ?_⟩, ?_⟩
  · exact fun row listed => by simp [map_subset _ first listed]
  · exact fun row listed => by simp [map_subset _ second listed]
  · exact fun row listed => by simp [map_subset _ third listed]
  · exact fun row listed => by simp [map_subset _ last listed]

variable (takes : taken (documentRows legacy) = true)

include takes

/-- What is missing of a document that the database can hold, it can hold too. -/
theorem fits_of_taken (stage : Stage) : s.fits legacy stage = true := by
  cases stage with
  | migration =>
    apply all_eq_true.mpr
    intro row listed
    apply all_eq_true.mp takes
    exact recordRows_subset (filter_subset_self _) (filter_subset_self _) (filter_subset_self _)
      (filter_subset_self _) listed
  | schema | readMarker | backup | writeMarker => rfl

theorem step_advance (stage : Stage) (pending : s.initPromise = .pending stage) :
    step legacy s (.advance true) = some (s.done legacy stage) := by
  unfold step
  rw [pending]
  dsimp only
  rw [fits_of_taken legacy s takes]
  rfl

theorem recovers_pending (stage : Stage) (s : System Payload)
    (pending : s.initPromise = .pending stage) : Recovers collation legacy s := by
  have onward : ∀ (stage : Stage) (s : System Payload), s.initPromise = .pending stage →
      Recovers collation legacy (s.done legacy stage) → Recovers collation legacy s := by
    intro stage s pending later
    exact later.of_step collation legacy (Or.inr rfl) (step_advance legacy s takes stage pending)
  have marked : ∀ s : System Payload, s.initPromise = .pending .writeMarker →
      Recovers collation legacy s := by
    intro s pending
    apply onward .writeMarker s pending
    exact recovers_resolved collation legacy _ rfl
  have migrated : ∀ s : System Payload, s.initPromise = .pending .migration →
      Recovers collation legacy s := by
    intro s pending
    exact onward .migration s pending (marked _ rfl)
  have saved : ∀ s : System Payload, s.initPromise = .pending .backup →
      Recovers collation legacy s := by
    intro s pending
    exact onward .backup s pending (migrated _ rfl)
  have read : ∀ s : System Payload, s.initPromise = .pending .readMarker →
      Recovers collation legacy s := by
    intro s pending
    apply onward .readMarker s pending
    unfold System.done
    dsimp only
    split
    · exact recovers_resolved collation legacy _ rfl
    · exact saved _ rfl
  cases stage with
  | schema => exact onward .schema s pending (read _ rfl)
  | readMarker => exact read s pending
  | backup => exact saved s pending
  | migration => exact migrated s pending
  | writeMarker => exact marked s pending

/-- Only an initialisation that has failed stands in the way. -/
theorem recovers_of_not_rejected (settled : s.initPromise ≠ .rejected) :
    Recovers collation legacy s := by
  cases state : s.initPromise with
  | idle =>
    have taken : step legacy s .call = some { s with initPromise := .pending .schema } := by
      unfold step
      rw [state]
    apply Recovers.of_step collation legacy (Or.inl rfl) taken
    exact recovers_pending collation legacy takes .schema _ rfl
  | pending stage => exact recovers_pending collation legacy takes stage s state
  | resolved => exact recovers_resolved collation legacy s state
  | rejected => exact absurd state settled

omit takes in
theorem rejected_stays {s t : System Payload} {steps : List (Step Payload)}
    (rejected : s.initPromise = .rejected)
    (others : ∀ a ∈ steps, a = Step.call ∨ a = Step.advance true)
    (reached : Runs.run (step legacy) s steps = some t) : t.initPromise = .rejected := by
  induction steps generalizing s with
  | nil =>
    cases reached
    exact rejected
  | cons a rest ih =>
    obtain ⟨u, taken, later⟩ := Runs.run_cons (step legacy) reached
    have tail : ∀ b ∈ rest, b = Step.call ∨ b = Step.advance true := by
      intro b listed
      exact others b (mem_cons_of_mem _ listed)
    unfold step at taken
    rcases others a mem_cons_self with same | same
    · rw [same] at taken
      rw [rejected] at taken
      cases taken
      exact ih rejected tail later
    · rw [same] at taken
      rw [rejected] at taken
      cases taken

omit takes in
theorem not_recovers_of_rejected (rejected : s.initPromise = .rejected) :
    ¬Recovers collation legacy s := by
  intro recovers
  obtain ⟨steps, others, t, reached, answers, -⟩ := recovers
  have failed := rejected_stays legacy rejected others reached
  unfold load at answers
  rw [failed] at answers
  cases answers

end Recovery

section Contents

variable {Payload : Type} (collation : Collation) (legacy : Document Payload)

/-! What the tables hold of a document. -/

structure Holds (tables : Tables Payload) (db : Document Payload) : Prop where
  installations : ∀ id,
    tables.installations.get id = (db.installations.get id).map Installation.fields
  users : ∀ email, tables.users.get email = db.users.get email
  sessions : ∀ token, tables.sessions.get token = db.sessions.get token
  auditEvents : ∀ id event, tables.auditEvents.get id = some event ↔
    event ∈ db.auditEvents ∧ event.id = some id
  release : tables.release.join = db.release.join
  releaseHistorico : tables.releaseHistorico.getD [] = db.releaseHistorico.getD []

theorem mem_auditRows {events : List (AuditEvent Payload)} {id : Text} {event : AuditEvent Payload} :
    (id, event) ∈ auditRows events ↔ event ∈ events ∧ event.id = some id := by
  unfold auditRows
  rw [mem_filterMap]
  constructor
  · intro listed
    obtain ⟨other, here, same⟩ := listed
    obtain ⟨named, known, same⟩ := Option.map_eq_some_iff.mp same
    cases same
    exact ⟨here, known⟩
  · intro listed
    refine ⟨event, listed.1, ?_⟩
    rw [listed.2]
    rfl

variable {db : Document Payload}

variable {tables : Tables Payload}

/-- Once the tables hold the legacy document, there is nothing left to migrate. -/
theorem missing_nil {α β : Type} {rows : List (Text × α)} {table : KeyedTable Text β}
    (known : ∀ row ∈ rows, row.1 ∈ table.keys) : missing rows table = [] := by
  apply filter_eq_nil_iff.mpr
  intro row listed fresh
  exact of_decide_eq_true fresh (known row listed)

theorem missing_empty {α β : Type} (rows : List (Text × α)) :
    missing rows (.empty : KeyedTable Text β) = rows := by
  apply filter_eq_self.mpr
  intro row _
  exact decide_eq_true (not_mem_nil)

theorem Holds.mem_installations (holds : Holds tables db) {id : Text} :
    id ∈ tables.installations.keys ↔ id ∈ db.installations.keys := by
  rw [← isSome_get, ← isSome_get, holds.installations, Option.isSome_map]

theorem Holds.mem_users (holds : Holds tables db) {email : Text} :
    email ∈ tables.users.keys ↔ email ∈ db.users.keys := by
  rw [← isSome_get, ← isSome_get, holds.users]

theorem Holds.mem_sessions (holds : Holds tables db) {token : Text} :
    token ∈ tables.sessions.keys ↔ token ∈ db.sessions.keys := by
  rw [← isSome_get, ← isSome_get, holds.sessions]

theorem Holds.mem_audit (holds : Holds tables db) {id : Text} :
    id ∈ tables.auditEvents.keys ↔ id ∈ auditIds db.auditEvents := by
  rw [← isSome_get, Option.isSome_iff_exists]
  constructor
  · intro found
    obtain ⟨event, found⟩ := found
    have listed := mem_auditRows.mpr ((holds.auditEvents id event).mp found)
    exact mem_map_of_mem listed
  · intro listed
    obtain ⟨row, here, named⟩ := mem_map.mp listed
    refine ⟨row.2, ?_⟩
    rw [← named]
    exact (holds.auditEvents row.1 row.2).mpr (mem_auditRows.mp here)

theorem Holds.auditRows_stored (holds : Holds tables db) :
    auditRows (tables.auditEvents.rows.map Prod.snd) = tables.auditEvents.rows := by
  unfold auditRows
  rw [filterMap_map]
  have each : ∀ row ∈ tables.auditEvents.rows,
      ((fun event : AuditEvent Payload => event.id.map (·, event)) ∘ Prod.snd) row = some row := by
    intro row listed
    have named := (holds.auditEvents row.1 row.2).mp (get_eq_some.mpr listed)
    show row.2.id.map (·, row.2) = some row
    rw [named.2]
    rfl
  rw [filterMap_congr each, filterMap_some]

/-! The merging of both sources. -/

theorem mergeMap_get {α : Type} {pg legacy : KeyedTable Text α} {k : Text}
    (known : k ∈ legacy.keys → k ∈ pg.keys) : (mergeMap pg legacy).get k = pg.get k := by
  unfold mergeMap
  rw [get_putAll]
  cases found : pg.get k with
  | some a => rfl
  | none =>
    have absent : legacy.get k = none := by
      apply get_eq_none.mpr
      intro listed
      exact get_eq_none.mp found (known listed)
    rw [absent]
    rfl

theorem precedes_total (a b : AuditEvent Payload) :
    precedes collation a b ∨ precedes collation b a := by
  rcases lt_trichotomy a.happenedAt b.happenedAt with earlier | same | later
  · exact Or.inl (Or.inl earlier)
  · rcases collation.total (a.id.getD []) (b.id.getD []) with first | second
    · exact Or.inl (Or.inr ⟨same, first⟩)
    · exact Or.inr (Or.inr ⟨same.symm, second⟩)
  · exact Or.inr (Or.inl later)

theorem precedes_trans (a b c : AuditEvent Payload) (first : precedes collation a b)
    (second : precedes collation b c) : precedes collation a c := by
  rcases first with earlier | ⟨same, texts⟩
  · rcases second with earlier' | ⟨same', -⟩
    · exact Or.inl (lt_trans earlier earlier')
    · exact Or.inl (lt_of_lt_of_eq earlier same')
  · rcases second with earlier' | ⟨same', texts'⟩
    · exact Or.inl (lt_of_eq_of_lt same earlier')
    · exact Or.inr ⟨same.trans same', collation.trans _ _ _ texts texts'⟩

theorem sortAuditEvents_eq {events others : List (AuditEvent Payload)} (perm : others.Perm events)
    (sorted : events.Pairwise fun a b => precedes collation a b ∧ ¬precedes collation b a) :
    sortAuditEvents collation others = events := by
  have total : Std.Total (@precedes Payload collation) := ⟨precedes_total collation⟩
  have trans : IsTrans (AuditEvent Payload) (precedes collation) := ⟨precedes_trans collation⟩
  have whole := (perm_insertionSort (precedes collation) others).trans perm
  have first := pairwise_insertionSort (@precedes Payload collation) others
  apply List.Perm.eq_of_pairwise _ first (sorted.imp fun ordered => ordered.1) whole
  intro a b inFirst inSecond forth back
  have apart : Std.Symm fun a b : AuditEvent Payload =>
      ¬(precedes collation a b ∧ precedes collation b a) := by
    constructor
    intro a b other both
    exact other both.symm
  have strict : events.Pairwise fun a b => ¬(precedes collation a b ∧ precedes collation b a) :=
    sorted.imp fun ordered both => ordered.2 both.2
  by_contra differ
  exact strict.forall (whole.mem_iff.mp inFirst) inSecond differ ⟨forth, back⟩

variable [Unicode]

/-! What is written, and what a load returns of it. -/

/-- The events of a document that can be stored, as a table. -/
def Storable.audit {db : Document Payload} (storable : Storable db) :
    KeyedTable Text (AuditEvent Payload) :=
  ⟨auditRows db.auditEvents, storable.distinct⟩

theorem Storable.get_audit (storable : Storable db) (id : Text) (event : AuditEvent Payload) :
    storable.audit.get id = some event ↔ event ∈ db.auditEvents ∧ event.id = some id :=
  get_eq_some.trans mem_auditRows

theorem Storable.audit_values (storable : Storable db) :
    storable.audit.rows.map Prod.snd = db.auditEvents := by
  show (auditRows db.auditEvents).map Prod.snd = db.auditEvents
  unfold auditRows
  rw [map_filterMap]
  have each : ∀ event ∈ db.auditEvents,
      (event.id.map (·, event)).map Prod.snd = some event := by
    intro event listed
    obtain ⟨id, named⟩ := Option.ne_none_iff_exists'.mp (storable.identified event listed)
    rw [named]
    rfl
  calc db.auditEvents.filterMap (fun event => (event.id.map (·, event)).map Prod.snd)
      = db.auditEvents.filterMap some := filterMap_congr each
    _ = db.auditEvents := filterMap_some

theorem Storable.userRows (storable : Storable db) :
    db.users.rows.map userToRow = db.users.rows := by
  have each : ∀ row ∈ db.users.rows, userToRow row = row := by
    intro row listed
    unfold userToRow
    rw [storable.canonical row.1 (mem_map_of_mem listed)]
  rw [map_congr_left each, map_id']

theorem migrate_again (holds : Holds tables legacy) : migrateFromLegacy tables legacy = tables := by
  have installations : missing legacy.installations.rows tables.installations = [] := by
    apply missing_nil
    intro row listed
    exact holds.mem_installations.mpr (mem_map_of_mem listed)
  have users : missing legacy.users.rows tables.users = [] := by
    apply missing_nil
    intro row listed
    exact holds.mem_users.mpr (mem_map_of_mem listed)
  have sessions : missing legacy.sessions.rows tables.sessions = [] := by
    apply missing_nil
    intro row listed
    exact holds.mem_sessions.mpr (mem_map_of_mem listed)
  have events : missing (auditRows legacy.auditEvents) tables.auditEvents = [] := by
    apply missing_nil
    intro row listed
    exact holds.mem_audit.mpr (mem_map_of_mem listed)
  unfold migrateFromLegacy
  rw [installations, users, sessions, events]
  rfl

theorem migrate_created (storable : Storable legacy) (unreleased : legacy.release.join = none)
    (first : legacy.releaseHistorico.getD [] = []) :
    Holds (migrateFromLegacy .created legacy) legacy ∧
      (migrateFromLegacy .created legacy).auditEvents = storable.audit := by
  have installations : (migrateFromLegacy .created legacy).installations =
      legacy.installations.mapValues fun _ => Installation.fields := by
    show KeyedTable.empty.putAll ((missing legacy.installations.rows KeyedTable.empty).map _) = _
    rw [missing_empty]
    exact empty_putAll (legacy.installations.mapValues fun _ => Installation.fields)
  have users : (migrateFromLegacy .created legacy).users = legacy.users := by
    show KeyedTable.empty.putAll ((missing legacy.users.rows KeyedTable.empty).map _) = _
    rw [missing_empty, storable.userRows]
    exact empty_putAll legacy.users
  have sessions : (migrateFromLegacy .created legacy).sessions = legacy.sessions := by
    show KeyedTable.empty.putAll (missing legacy.sessions.rows KeyedTable.empty) = _
    rw [missing_empty]
    exact empty_putAll legacy.sessions
  have events : (migrateFromLegacy .created legacy).auditEvents = storable.audit := by
    show KeyedTable.empty.putAll (missing (auditRows legacy.auditEvents) KeyedTable.empty) = _
    rw [missing_empty]
    exact empty_putAll storable.audit
  refine ⟨⟨?_, ?_, ?_, ?_, unreleased.symm, first.symm⟩, events⟩
  · intro id
    rw [installations, get_mapValues]
  · intro email
    rw [users]
  · intro token
    rw [sessions]
  · intro id event
    rw [events]
    exact storable.get_audit id event

theorem writeAll_holds {s : System Payload} (storable : Storable db)
    (holds : Holds s.tables s.expected) : Holds (s.saved db).tables (s.saved db).expected where
  installations := by
    intro id
    have replaced := get_replaced
      (db.installations.mapValues fun _ => Installation.fields) s.tables.installations id
    rw [get_mapValues] at replaced
    have sameKeys : (db.installations.mapValues fun _ => Installation.fields).keys =
        db.installations.keys := by
      unfold KeyedTable.keys KeyedTable.mapValues
      rw [map_map]
      rfl
    rw [sameKeys] at replaced
    exact replaced
  users := by
    intro email
    show ((s.tables.users.putAll (db.users.rows.map userToRow)).keepOnly _).get email = _
    rw [storable.userRows]
    exact get_replaced db.users s.tables.users email
  sessions := by
    intro token
    exact get_replaced db.sessions s.tables.sessions token
  auditEvents := by
    intro id event
    have replaced := get_replaced storable.audit s.tables.auditEvents id
    have found := storable.get_audit id event
    rw [← replaced] at found
    exact found
  release := by
    show (db.release.or s.tables.release).join = (db.release.or s.expected.release).join
    cases db.release with
    | none => exact holds.release
    | some release => rfl
  releaseHistorico := by
    show (db.releaseHistorico.or s.tables.releaseHistorico).getD [] =
      (db.releaseHistorico.or s.expected.releaseHistorico).getD []
    cases db.releaseHistorico with
    | none => exact holds.releaseHistorico
    | some releases => rfl

theorem writeAll_ordered (storable : Storable db) (continues : Continues tables db) :
    (writeAll tables db).auditEvents.rows.map Prod.snd = db.auditEvents := by
  have whole : (writeAll tables db).auditEvents = storable.audit := by
    apply eq_of_get
    · exact (keys_replaced storable.audit tables.auditEvents).trans continues
    · exact get_replaced storable.audit tables.auditEvents
  rw [whole, storable.audit_values]

theorem Storable.read_installation (storable : Storable db) (holds : Holds tables db) (id : Text) :
    (readAll tables).installations.get id = db.installations.get id := by
  show (tables.installations.mapValues rowToInstallation).get id = _
  rw [get_mapValues, holds.installations id]
  cases found : db.installations.get id with
  | none => rfl
  | some item =>
    have named := storable.named (id, item) (get_eq_some.mp found)
    show some (rowToInstallation id item.fields) = some item
    unfold rowToInstallation
    rw [← named]

theorem readAll_same (storable : Storable db) (holds : Holds tables db)
    (ordered : tables.auditEvents.rows.map Prod.snd = db.auditEvents) :
    Same (readAll tables) db where
  installations := storable.read_installation holds
  users := holds.users
  sessions := holds.sessions
  auditEvents := ordered
  release := holds.release
  releaseHistorico := holds.releaseHistorico

theorem mergeAuditEvents_eq (storable : Storable db) (legacyStorable : Storable legacy)
    (holds : Holds tables db) (merges : Merges collation legacy db) :
    mergeAuditEvents collation (readAll tables).auditEvents legacy.auditEvents =
      db.auditEvents := by
  unfold mergeAuditEvents readAll
  rw [holds.auditRows_stored]
  have legacyRows : KeyedTable.empty.putAll (auditRows legacy.auditEvents) = legacyStorable.audit :=
    empty_putAll legacyStorable.audit
  rw [legacyRows]
  have found : ∀ id, (mergeMap tables.auditEvents legacyStorable.audit).get id =
      tables.auditEvents.get id := by
    intro id
    apply mergeMap_get
    intro listed
    exact holds.mem_audit.mpr (merges.auditEvents id listed)
  apply sortAuditEvents_eq collation _ merges.sorted
  have rows : (mergeMap tables.auditEvents legacyStorable.audit).rows.Perm storable.audit.rows := by
    apply (perm_ext_iff_of_nodup
      (List.Nodup.of_map Prod.fst (mergeMap tables.auditEvents legacyStorable.audit).distinct)
      (List.Nodup.of_map Prod.fst storable.audit.distinct)).mpr
    intro row
    obtain ⟨id, event⟩ := row
    rw [← get_eq_some, ← get_eq_some, found, holds.auditEvents,
      storable.get_audit]
  have values := rows.map Prod.snd
  rw [storable.audit_values] at values
  exact values

theorem mergeDb_same (storable : Storable db) (legacyStorable : Storable legacy)
    (holds : Holds tables db) (merges : Merges collation legacy db) :
    Same (mergeDb collation (readAll tables) legacy) db where
  installations := by
    intro id
    rw [← storable.read_installation holds id]
    apply mergeMap_get
    intro listed
    have known := merges.installations id listed
    rw [← isSome_get, storable.read_installation holds id, isSome_get]
    exact known
  users := by
    intro email
    rw [← holds.users email]
    apply mergeMap_get
    intro listed
    exact holds.mem_users.mpr (merges.users email listed)
  sessions := by
    intro token
    rw [← holds.sessions token]
    apply mergeMap_get
    intro listed
    exact holds.mem_sessions.mpr (merges.sessions token listed)
  auditEvents := mergeAuditEvents_eq collation legacy storable legacyStorable holds merges
  release := holds.release
  releaseHistorico := holds.releaseHistorico

theorem load_same [Postgres Payload] {s : System Payload} (storable : Storable s.expected)
    (legacyStorable : Storable legacy) (holds : Holds s.tables s.expected)
    (ordered : Ordered collation legacy s.mode s.tables s.expected)
    (loaded : load collation legacy s = some db) : Same db s.expected := by
  unfold load at loaded
  split at loaded
  · split at loaded
    · rename_i mode
      rw [mode] at ordered
      cases loaded
      exact readAll_same storable holds ordered
    · rename_i mode
      rw [mode] at ordered
      cases loaded
      exact mergeDb_same collation legacy storable legacyStorable holds ordered
  · cases loaded

end Contents

section Runs

variable {Payload : Type} [Unicode] (collation : Collation) (legacy : Document Payload)

/-! Runs. -/

structure Known (s : System Payload) : Prop where
  settled : s.initPromise ≠ .rejected
  backed : (s.initPromise = .pending .migration ∨ s.initPromise = .pending .writeMarker ∨
    s.tables.migration = true ∨ ¬s.tables.Blank) → collectSigningIdentities legacy ∈ s.backups
  early : s.tables.migration = false → s.expected = legacy ∧ s.initPromise ≠ .resolved ∧
    ((s.tables = .created ∧ s.initPromise ≠ .pending .writeMarker) ∨
      Storable legacy ∧ Holds s.tables legacy ∧
        s.tables.auditEvents.rows.map Prod.snd = legacy.auditEvents)
  late : s.tables.migration = true →
    Storable legacy ∧ Storable s.expected ∧ Holds s.tables s.expected
  unmarked : ∀ stage, s.initPromise = .pending stage → stage ≠ .schema → stage ≠ .readMarker →
    s.tables.migration = false
  ready : s.initPromise = .resolved → s.tables.migration = true ∧
    Ordered collation legacy s.mode s.tables s.expected

theorem known_start (mode : Mode) : Known collation legacy (.start legacy mode) where
  settled := by
    intro same
    cases same
  backed := by
    intro cause
    rcases cause with migrating | marking | marked | filled
    · cases migrating
    · cases marking
    · cases marked
    · exact absurd ⟨rfl, rfl, rfl, rfl⟩ filled
  early := by
    intro _
    refine ⟨rfl, ?_, Or.inl ⟨rfl, ?_⟩⟩
    all_goals
      intro same
      cases same
  late := by
    intro marked
    cases marked
  unmarked := by
    intro _ _ _ _
    rfl
  ready := by
    intro same
    cases same

variable {s : System Payload}

section

variable (known : Known collation legacy s)

include known

/-- Moving on to a stage that has no duties of its own changes nothing else. -/
theorem Known.moved (mode : Mode) (init : Init) (settled : init ≠ .rejected)
    (unresolved : init ≠ .resolved)
    (calm : init ≠ .pending .migration ∧ init ≠ .pending .writeMarker)
    (fresh : init = .pending .backup → s.tables.migration = false) :
    Known collation legacy { s with mode := mode, initPromise := init } where
  settled := settled
  backed := by
    intro cause
    rcases cause with migrating | marking | others
    · exact absurd migrating calm.1
    · exact absurd marking calm.2
    · exact known.backed (Or.inr (Or.inr others))
  early := by
    intro unmarked
    obtain ⟨same, -, tables⟩ := known.early unmarked
    refine ⟨same, unresolved, ?_⟩
    rcases tables with ⟨blank, -⟩ | held
    · exact Or.inl ⟨blank, calm.2⟩
    · exact Or.inr held
  late := known.late
  unmarked := by
    intro stage pending notSchema notRead
    cases stage with
    | schema => exact absurd rfl notSchema
    | readMarker => exact absurd rfl notRead
    | backup => exact fresh pending
    | migration => exact absurd pending calm.1
    | writeMarker => exact absurd pending calm.2
  ready := by
    intro resolved
    exact absurd resolved unresolved

theorem Known.readMarker
    (ordered : s.tables.migration = true → Ordered collation legacy s.mode s.tables s.expected) :
    Known collation legacy (s.done legacy .readMarker) := by
  unfold System.done
  dsimp only
  split
  · rename_i marked
    refine ⟨by simp, ?_, ?_, known.late, by simp, fun _ => ⟨marked, ordered marked⟩⟩
    · intro _
      exact known.backed (Or.inr (Or.inr (Or.inl marked)))
    · intro unmarked
      rw [marked] at unmarked
      cases unmarked
  · rename_i unmarked
    exact known.moved collation legacy s.mode (.pending .backup) (by simp) (by simp) (by simp)
      fun _ => Bool.eq_false_iff.mpr unmarked

theorem Known.backup (unmarked : s.tables.migration = false) :
    Known collation legacy (s.done legacy .backup) where
  settled := by simp [System.done]
  backed := by
    intro _
    exact mem_cons_self
  early := by
    intro _
    obtain ⟨same, -, tables⟩ := known.early unmarked
    refine ⟨same, by simp [System.done], ?_⟩
    rcases tables with ⟨blank, -⟩ | held
    · exact Or.inl ⟨blank, by simp [System.done]⟩
    · exact Or.inr held
  late := known.late
  unmarked := by
    intro _ _ _ _
    exact unmarked
  ready := by simp [System.done]

theorem Known.migration (pending : s.initPromise = .pending .migration) (storable : Storable legacy)
    (unreleased : legacy.release.join = none) (first : legacy.releaseHistorico.getD [] = []) :
    Known collation legacy (s.done legacy .migration) := by
  have unmarked : s.tables.migration = false :=
    known.unmarked .migration pending (by simp) (by simp)
  obtain ⟨same, -, tables⟩ := known.early unmarked
  have held : Holds (migrateFromLegacy s.tables legacy) legacy ∧
      (migrateFromLegacy s.tables legacy).auditEvents.rows.map Prod.snd = legacy.auditEvents := by
    rcases tables with ⟨blank, -⟩ | ⟨-, holds, ordered⟩
    · rw [blank]
      obtain ⟨holds, whole⟩ := migrate_created legacy storable unreleased first
      rw [whole]
      exact ⟨holds, storable.audit_values⟩
    · rw [migrate_again legacy holds]
      exact ⟨holds, ordered⟩
  have stillUnmarked : (s.done legacy .migration).tables.migration = false := unmarked
  constructor
  case settled => simp [System.done]
  case backed =>
    intro _
    exact known.backed (Or.inl pending)
  case early =>
    intro _
    exact ⟨same, by simp [System.done], Or.inr ⟨storable, held⟩⟩
  case late =>
    intro marked
    rw [stillUnmarked] at marked
    cases marked
  case unmarked =>
    intro _ _ _ _
    exact stillUnmarked
  case ready => simp [System.done]

theorem Known.writeMarker (pending : s.initPromise = .pending .writeMarker)
    (merges : s.mode = .dual → Merges collation legacy legacy) :
    Known collation legacy (s.done legacy .writeMarker) := by
  have unmarked : s.tables.migration = false :=
    known.unmarked .writeMarker pending (by simp) (by simp)
  obtain ⟨same, -, tables⟩ := known.early unmarked
  have held : Storable legacy ∧ Holds s.tables legacy ∧
      s.tables.auditEvents.rows.map Prod.snd = legacy.auditEvents := by
    rcases tables with ⟨-, other⟩ | held
    · exact absurd pending other
    · exact held
  obtain ⟨storable, holds, ordered⟩ := held
  have marked : Holds { s.tables with migration := true } legacy :=
    ⟨holds.installations, holds.users, holds.sessions, holds.auditEvents, holds.release,
      holds.releaseHistorico⟩
  constructor
  case settled => simp [System.done]
  case backed =>
    intro _
    exact known.backed (Or.inr (Or.inl pending))
  case early =>
    intro stays
    cases stays
  case late =>
    intro _
    refine ⟨storable, ?_⟩
    show Storable s.expected ∧ Holds { s.tables with migration := true } s.expected
    rw [same]
    exact ⟨storable, marked⟩
  case unmarked => simp [System.done]
  case ready =>
    intro _
    refine ⟨rfl, ?_⟩
    show Ordered collation legacy s.mode { s.tables with migration := true } s.expected
    rw [same]
    unfold Ordered
    split
    · exact ordered
    · rename_i mode
      exact merges mode

variable [Postgres Payload]

theorem Known.sound (takes : taken (documentRows legacy) = true) : Sound collation legacy s where
  recovers := recovers_of_not_rejected collation legacy s takes known.settled
  backed := by
    intro filled
    exact known.backed (Or.inr (Or.inr (Or.inr filled)))
  faithful := by
    intro db loaded
    have resolved : s.initPromise = .resolved := by
      unfold load at loaded
      split at loaded
      · assumption
      · cases loaded
    obtain ⟨marked, ordered⟩ := known.ready resolved
    obtain ⟨legacyStorable, storable, holds⟩ := known.late marked
    exact load_same collation legacy storable legacyStorable holds ordered loaded

theorem Known.done {stage : Stage} (pending : s.initPromise = .pending stage)
    (allowed : Orderly collation legacy s (.advance true)) :
    Known collation legacy (s.done legacy stage) := by
  unfold Orderly Due at allowed
  rw [pending] at allowed
  cases stage with
  | schema =>
    exact known.moved collation legacy s.mode (.pending .readMarker) (by simp) (by simp) (by simp)
      (by simp)
  | readMarker => exact known.readMarker collation legacy allowed.2
  | backup =>
    exact known.backup collation legacy (known.unmarked .backup pending (by simp) (by simp))
  | migration =>
    exact known.migration collation legacy pending allowed.2.1 allowed.2.2.1 allowed.2.2.2
  | writeMarker => exact known.writeMarker collation legacy pending allowed.2

theorem Known.saved (resolved : s.initPromise = .resolved) {db : Document Payload}
    (allowed : Orderly collation legacy s (.save db true)) :
    Known collation legacy (s.saved db) := by
  obtain ⟨marked, -⟩ := known.ready resolved
  obtain ⟨legacyStorable, -, holds⟩ := known.late marked
  obtain ⟨-, storable, ordered⟩ := allowed rfl
  have stillMarked : (s.saved db).tables.migration = true := marked
  constructor
  case settled => exact known.settled
  case backed =>
    intro _
    exact known.backed (Or.inr (Or.inr (Or.inl marked)))
  case early =>
    intro unmarked
    rw [stillMarked] at unmarked
    cases unmarked
  case late =>
    intro _
    have kept : Storable (s.saved db).expected :=
      ⟨storable.named, storable.canonical, storable.identified, storable.distinct⟩
    exact ⟨legacyStorable, kept, writeAll_holds storable holds⟩
  case unmarked =>
    intro stage pending
    have still : s.initPromise = .pending stage := pending
    rw [resolved] at still
    cases still
  case ready =>
    intro _
    refine ⟨stillMarked, ?_⟩
    show Ordered collation legacy s.mode (writeAll s.tables db) (s.saved db).expected
    unfold Readable at ordered
    unfold Ordered
    split
    · rename_i mode
      rw [mode] at ordered
      exact writeAll_ordered storable ordered
    · rename_i mode
      rw [mode] at ordered
      exact ⟨ordered.installations, ordered.users, ordered.sessions, ordered.auditEvents,
        ordered.sorted⟩

end

variable [Postgres Payload]

theorem known_preserved (takes : taken (documentRows legacy) = true) :
    Runs.Preserves (step legacy) (Orderly collation legacy) (Known collation legacy) := by
  intro s a t allowed known taken
  unfold step at taken
  cases a with
  | call =>
    dsimp only at taken
    split at taken
    · cases taken
      exact known.moved collation legacy s.mode (.pending .schema) (by simp) (by simp) (by simp)
        (by simp)
    · cases taken
      exact known
  | advance works =>
    have worked : works = true := allowed.1
    rw [worked] at allowed taken
    dsimp only at taken
    split at taken
    · rename_i stage pending
      rw [fits_of_taken legacy s takes] at taken
      cases taken
      exact known.done collation legacy pending allowed
    · cases taken
  | save db works =>
    dsimp only at taken
    split at taken
    · rename_i resolved
      cases works with
      | true =>
        rw [(allowed rfl).1] at taken
        cases taken
        exact known.saved collation legacy resolved allowed
      | false =>
        cases taken
        exact known
    · cases taken
  | restart mode =>
    cases taken
    exact known.moved collation legacy mode .idle (by simp) (by simp) (by simp) (by simp)

/-- While no stage of the initialisation fails, and what is migrated and saved can be held by the
tables and read back in the mode, the datastore recovers, keeps the backup, and returns what it was
given. -/
theorem datastore_sound (takes : taken (documentRows legacy) = true) (mode : Mode)
    (steps : List (Step Payload)) (s : System Payload)
    (allowed : Runs.Allowed (step legacy) (Orderly collation legacy) (.start legacy mode) steps)
    (reached : Runs.run (step legacy) (.start legacy mode) steps = some s) :
    Sound collation legacy s := by
  have known := Runs.run_invariant (step legacy) (known_preserved collation legacy takes)
    (.start legacy mode) s steps allowed (known_start collation legacy mode) reached
  exact known.sound collation legacy takes

end Runs

section Instances

local instance : Unicode := JsString.ascii

/-- The small documents below have nothing that the database refuses. -/
local instance : Postgres ℕ := ⟨fun _ => true⟩

def units : Collation := ⟨JsString.unitsLe, JsString.unitsLe_total, JsString.unitsLe_trans⟩

def event (id : String) (happenedAt : ℕ) : AuditEvent ℕ := ⟨some id.toList, happenedAt, 0⟩

def legacyDocument (release : Option ℕ) : Document ℕ where
  installations :=
    ⟨[("i1".toList, ⟨some "i1".toList, ⟨some "key".toList, none, none, 1⟩⟩)], by simp⟩
  users := ⟨[("ana@x".toList, ⟨some "hash".toList, 2⟩)], by simp⟩
  sessions := ⟨[("t1".toList, 3)], by simp⟩
  auditEvents := [event "a" 1, event "b" 2]
  release := some release
  releaseHistorico := none

def laterDocument : Document ℕ :=
  { legacyDocument (some 4) with
    auditEvents := [event "a" 1, event "b" 2, event "c" 2]
    releaseHistorico := some [4] }

def initialised : List (Step ℕ) := .call :: List.replicate 5 (.advance true)

theorem migrated_sound :
    ∃ s, Runs.run (step (legacyDocument none)) (.start (legacyDocument none) .dual)
        (initialised ++ [.save laterDocument true, .restart .pg, .call, .advance true,
          .advance true, .save laterDocument false]) = some s ∧
      s.initPromise = .resolved ∧ Sound units (legacyDocument none) s := by
  have runs : ((Runs.run (step (legacyDocument none)) (.start (legacyDocument none) .dual)
      (initialised ++ [.save laterDocument true, .restart .pg, .call, .advance true,
        .advance true, .save laterDocument false])).map System.initPromise) = some .resolved := by
    decide +kernel
  obtain ⟨s, reached, resolved⟩ := Option.map_eq_some_iff.mp runs
  refine ⟨s, reached, resolved, ?_⟩
  apply datastore_sound units (legacyDocument none) (by decide) .dual _ s _ reached
  apply Runs.allowedBy_allowed
  decide +kernel

/-- A stage that fails once is never tried again, and a release of the legacy document is lost in
both modes. -/
theorem startup_broken :
    (∃ s, Runs.run (step (legacyDocument none)) (.start (legacyDocument none) .pg)
        [.call, .advance false] = some s ∧ ¬Recovers units (legacyDocument none) s) ∧
      ∀ mode, ∃ s db,
        Runs.run (step (legacyDocument (some 4))) (.start (legacyDocument (some 4)) mode)
          initialised = some s ∧
        load units (legacyDocument (some 4)) s = some db ∧ ¬Same db s.expected := by
  constructor
  · refine ⟨_, rfl, ?_⟩
    apply not_recovers_of_rejected
    rfl
  · intro mode
    have lost : ((Runs.run (step (legacyDocument (some 4))) (.start (legacyDocument (some 4)) mode)
        initialised).bind fun s => (load units (legacyDocument (some 4)) s).map fun db =>
          (db.release.join, s.expected.release.join)) = some (none, some 4) := by
      cases mode with
      | dual | pg => decide +kernel
    obtain ⟨s, reached, found⟩ := Option.bind_eq_some_iff.mp lost
    obtain ⟨db, loaded, releases⟩ := Option.map_eq_some_iff.mp found
    refine ⟨s, db, reached, loaded, ?_⟩
    intro same
    have both := same.release
    rw [(Prod.mk.inj releases).1, (Prod.mk.inj releases).2] at both
    cases both

end Instances

end DracVms.Datastore
