import DracVms.Database.Schema
import DracVms.Library.JsString
import DracVms.Library.KeyedTable
import DracVms.Library.Runs

namespace DracVms.Datastore

open Json (Text)
open JsString (Unicode)
open Database (Instant)

/-! The document. -/

/-- What an installation holds besides its `id`; a secret that is missing or empty is `none`. -/
structure Fields (Payload : Type) where
  licenseKey : Option Text
  installerTokenHash : Option Text
  sshHostKeys : Option Payload
  rest : Payload

structure Installation (Payload : Type) where
  id : Option Text
  fields : Fields Payload

structure User (Payload : Type) where
  passwordHash : Option Text
  rest : Payload

structure AuditEvent (Payload : Type) where
  id : Option Text
  happenedAt : Instant
  rest : Payload
  deriving DecidableEq

/-- `release` is `none` where the document has no such key, and `some none` where it is null. -/
structure Document (Payload : Type) where
  installations : KeyedTable Text (Installation Payload)
  users : KeyedTable Text (User Payload)
  sessions : KeyedTable Text Payload
  auditEvents : List (AuditEvent Payload)
  release : Option (Option Payload)
  releaseHistorico : Option (List Payload)

/-- The tables of the database. The payload of an installation holds the key of its row as its
`id`, so that the row needs its other fields only. -/
structure Tables (Payload : Type) where
  installations : KeyedTable Text (Fields Payload)
  users : KeyedTable Text (User Payload)
  sessions : KeyedTable Text Payload
  auditEvents : KeyedTable Text (AuditEvent Payload)
  release : Option (Option Payload)
  releaseHistorico : Option (List Payload)
  migration : Bool

inductive Row (Payload : Type) where
  | installation (id : Text) (fields : Fields Payload)
  | user (email : Text) (user : User Payload)
  | session (token : Text) (session : Payload)
  | auditEvent (id : Text) (event : AuditEvent Payload)
  | release (value : Option Payload)
  | releaseHistorico (value : List Payload)

/-- Which rows the database can hold: in no text and no JSON value a NUL or half a character, no
instant out of its range, no key too long for its index. -/
class Postgres (Payload : Type) where
  takes : Row Payload → Bool

section Store

variable {Payload : Type} [Unicode]

def Tables.created : Tables Payload := ⟨.empty, .empty, .empty, .empty, none, none, false⟩

def Tables.Blank (tables : Tables Payload) : Prop :=
  tables.installations.rows = [] ∧ tables.users.rows = [] ∧ tables.sessions.rows = [] ∧
    tables.auditEvents.rows = []

/-! The mapping of records to rows. -/

def installationToRow (row : Text × Installation Payload) : Text × Fields Payload :=
  (row.1, row.2.fields)

def rowToInstallation (id : Text) (fields : Fields Payload) : Installation Payload :=
  ⟨some id, fields⟩

def canonicalEmail (email : Text) : Text := Unicode.toLowerCase (JsString.trim email)

def userToRow (row : Text × User Payload) : Text × User Payload := (canonicalEmail row.1, row.2)

/-- An event without an `id` has no row. -/
def auditRows (events : List (AuditEvent Payload)) : List (Text × AuditEvent Payload) :=
  events.filterMap fun event => event.id.map (·, event)

def auditIds (events : List (AuditEvent Payload)) : List Text := (auditRows events).map Prod.fst

def recordRows (installations : List (Text × Installation Payload))
    (users : List (Text × User Payload)) (sessions : List (Text × Payload))
    (events : List (Text × AuditEvent Payload)) : List (Row Payload) :=
  (installations.map fun row => .installation row.1 row.2.fields) ++
    (users.map fun row => .user (canonicalEmail row.1) row.2) ++
    (sessions.map fun row => .session row.1 row.2) ++ events.map fun row => .auditEvent row.1 row.2

def documentRows (db : Document Payload) : List (Row Payload) :=
  recordRows db.installations.rows db.users.rows db.sessions.rows (auditRows db.auditEvents)

def metaRows (db : Document Payload) : List (Row Payload) :=
  db.release.toList.map .release ++ db.releaseHistorico.toList.map .releaseHistorico

def taken [Postgres Payload] (rows : List (Row Payload)) : Bool := rows.all Postgres.takes

/-! The store. -/

def readAll (tables : Tables Payload) : Document Payload where
  installations := tables.installations.mapValues rowToInstallation
  users := tables.users
  sessions := tables.sessions
  auditEvents := tables.auditEvents.rows.map Prod.snd
  release := some tables.release.join
  releaseHistorico := some (tables.releaseHistorico.getD [])

/-- Every record is put, and the rows that the document does not name are deleted. -/
def writeAll (tables : Tables Payload) (db : Document Payload) : Tables Payload :=
  { tables with
    installations :=
      (tables.installations.putAll (db.installations.rows.map installationToRow)).keepOnly
        db.installations.keys
    users := (tables.users.putAll (db.users.rows.map userToRow)).keepOnly db.users.keys
    sessions := (tables.sessions.putAll db.sessions.rows).keepOnly db.sessions.keys
    auditEvents :=
      (tables.auditEvents.putAll (auditRows db.auditEvents)).keepOnly (auditIds db.auditEvents)
    release := db.release.or tables.release
    releaseHistorico := db.releaseHistorico.or tables.releaseHistorico }

def missing {α β : Type} (rows : List (Text × α)) (table : KeyedTable Text β) : List (Text × α) :=
  rows.filter fun row => row.1 ∉ table.keys

/-- `reconcile` and the inserts of what it finds missing. -/
def migrateFromLegacy (tables : Tables Payload) (legacy : Document Payload) : Tables Payload :=
  { tables with
    installations := tables.installations.putAll
      ((missing legacy.installations.rows tables.installations).map installationToRow)
    users := tables.users.putAll ((missing legacy.users.rows tables.users).map userToRow)
    sessions := tables.sessions.putAll (missing legacy.sessions.rows tables.sessions)
    auditEvents := tables.auditEvents.putAll
      (missing (auditRows legacy.auditEvents) tables.auditEvents) }

def missingRows (tables : Tables Payload) (legacy : Document Payload) : List (Row Payload) :=
  recordRows (missing legacy.installations.rows tables.installations)
    (missing legacy.users.rows tables.users) (missing legacy.sessions.rows tables.sessions)
    (missing (auditRows legacy.auditEvents) tables.auditEvents)

/-! The reading of both sources. -/

/-- `localeCompare`, which puts any two texts in an order. -/
structure Collation where
  le : Text → Text → Bool
  total : ∀ a b, le a b = true ∨ le b a = true
  trans : ∀ a b c, le a b = true → le b c = true → le a c = true

variable (collation : Collation)

def precedes (a b : AuditEvent Payload) : Prop :=
  a.happenedAt < b.happenedAt ∨
    a.happenedAt = b.happenedAt ∧ collation.le (a.id.getD []) (b.id.getD []) = true

instance : DecidableRel (@precedes Payload collation) := fun _ _ =>
  inferInstanceAs (Decidable (_ ∨ _))

def sortAuditEvents (events : List (AuditEvent Payload)) : List (AuditEvent Payload) :=
  events.insertionSort (precedes collation)

def mergeAuditEvents (pgEvents legacyEvents : List (AuditEvent Payload)) :
    List (AuditEvent Payload) :=
  let byId := (KeyedTable.empty.putAll (auditRows legacyEvents)).putAll (auditRows pgEvents)
  sortAuditEvents collation (byId.rows.map Prod.snd)

def mergeMap {α : Type} (pgMap legacyMap : KeyedTable Text α) : KeyedTable Text α :=
  legacyMap.putAll pgMap.rows

def mergeDb (pg legacy : Document Payload) : Document Payload where
  installations := mergeMap pg.installations legacy.installations
  users := mergeMap pg.users legacy.users
  sessions := mergeMap pg.sessions legacy.sessions
  auditEvents := mergeAuditEvents collation pg.auditEvents legacy.auditEvents
  release := pg.release.or legacy.release
  releaseHistorico := pg.releaseHistorico.or legacy.releaseHistorico

/-! The backup of the signing identities. -/

structure SigningIdentity (Payload : Type) where
  licenseKey : Option Text
  installerTokenHash : Option Text
  sshHostKeys : Option Payload

structure Backup (Payload : Type) where
  installations : List (Text × SigningIdentity Payload)
  users : List (Text × Text)

def signingIdentity (fields : Fields Payload) : Option (SigningIdentity Payload) :=
  if fields.licenseKey.isSome || fields.installerTokenHash.isSome || fields.sshHostKeys.isSome then
    some ⟨fields.licenseKey, fields.installerTokenHash, fields.sshHostKeys⟩
  else none

def collectSigningIdentities (db : Document Payload) : Backup Payload where
  installations := db.installations.rows.filterMap fun row =>
    (signingIdentity row.2.fields).map (row.1, ·)
  users := db.users.rows.filterMap fun row => row.2.passwordHash.map (row.1, ·)

/-! The datastore of one process after the other. -/

inductive Mode where
  | dual
  | pg
  deriving DecidableEq

/-- The stages of `doInit`. -/
inductive Stage where
  | schema
  | readMarker
  | backup
  | migration
  | writeMarker
  deriving DecidableEq

/-- What `initPromise` holds. -/
inductive Init where
  | idle
  | pending (stage : Stage)
  | resolved
  | rejected
  deriving DecidableEq

structure System (Payload : Type) where
  mode : Mode
  initPromise : Init
  tables : Tables Payload
  /-- The backup files, which are never overwritten. -/
  backups : List (Backup Payload)
  /-- The legacy document, and later what was saved last. -/
  expected : Document Payload

inductive Step (Payload : Type) where
  /-- A load or a save, which begins with `ensureInit`. -/
  | call
  /-- The stage that `doInit` is at succeeds or fails. -/
  | advance (works : Bool)
  /-- The writing of a save, whose transaction may fail. -/
  | save (db : Document Payload) (works : Bool)
  | restart (mode : Mode)

variable [Postgres Payload] (legacy : Document Payload)

def System.start (mode : Mode) : System Payload := ⟨mode, .idle, .created, [], legacy⟩

def System.done (s : System Payload) : Stage → System Payload
  | .schema => { s with initPromise := .pending .readMarker }
  | .readMarker =>
    if s.tables.migration then { s with initPromise := .resolved }
    else { s with initPromise := .pending .backup }
  | .backup =>
    { s with
      initPromise := .pending .migration
      backups := collectSigningIdentities legacy :: s.backups }
  | .migration =>
    { s with
      initPromise := .pending .writeMarker
      tables := migrateFromLegacy s.tables legacy }
  | .writeMarker =>
    { s with initPromise := .resolved, tables := { s.tables with migration := true } }

/-- The transaction of the migration fails at a row that the database cannot hold. -/
def System.fits (s : System Payload) : Stage → Bool
  | .migration => taken (missingRows s.tables legacy)
  | _ => true

/-- A save does not touch what its document leaves undefined. -/
def System.saved (s : System Payload) (db : Document Payload) : System Payload :=
  { s with
    tables := writeAll s.tables db
    expected :=
      { db with
        release := db.release.or s.expected.release
        releaseHistorico := db.releaseHistorico.or s.expected.releaseHistorico } }

def step (s : System Payload) : Step Payload → Option (System Payload)
  | .call =>
    match s.initPromise with
    | .idle => some { s with initPromise := .pending .schema }
    | _ => some s
  | .advance works =>
    match s.initPromise with
    | .pending stage =>
      some (if works && s.fits legacy stage then s.done legacy stage
        else { s with initPromise := .rejected })
    | _ => none
  | .save db works =>
    match s.initPromise with
    | .resolved =>
      some (if works && taken (documentRows db ++ metaRows db) then s.saved db else s)
    | _ => none
  | .restart mode => some { s with mode := mode, initPromise := .idle }

def load (s : System Payload) : Option (Document Payload) :=
  match s.initPromise with
  | .resolved =>
    match s.mode with
    | .pg => some (readAll s.tables)
    | .dual => some (mergeDb collation (readAll s.tables) legacy)
  | _ => none

end Store

/-! What the datastore promises. -/

section Promise

variable {Payload : Type} [Unicode] [Postgres Payload] (collation : Collation)
  (legacy : Document Payload)

/-- The same records under the same keys, the same events in the same order, and the same release
and history. -/
structure Same (a b : Document Payload) : Prop where
  installations : ∀ id, a.installations.get id = b.installations.get id
  users : ∀ email, a.users.get email = b.users.get email
  sessions : ∀ token, a.sessions.get token = b.sessions.get token
  auditEvents : a.auditEvents = b.auditEvents
  release : a.release.join = b.release.join
  releaseHistorico : a.releaseHistorico.getD [] = b.releaseHistorico.getD []

/-- With a database that works and without a restart, a load and every save that it can hold come to
succeed. -/
def Recovers (s : System Payload) : Prop :=
  ∃ steps, (∀ a ∈ steps, a = Step.call ∨ a = Step.advance true) ∧
    ∃ t, Runs.run (step legacy) s steps = some t ∧ (load collation legacy t).isSome = true ∧
      ∀ db, taken (documentRows db ++ metaRows db) = true →
        step legacy t (.save db true) = some (t.saved db)

structure Sound (s : System Payload) : Prop where
  recovers : Recovers collation legacy s
  backed : ¬s.tables.Blank → collectSigningIdentities legacy ∈ s.backups
  faithful : ∀ db, load collation legacy s = some db → Same db s.expected

/-! When it keeps that. -/

/-- The tables keep the document as it is: an installation carries its key, an email address is in its
canonical form, and the events have ids that differ. -/
@[mk_iff]
structure Storable (db : Document Payload) : Prop where
  named : ∀ row ∈ db.installations.rows, row.2.id = some row.1
  canonical : ∀ email ∈ db.users.keys, canonicalEmail email = email
  identified : ∀ event ∈ db.auditEvents, event.id ≠ none
  distinct : (auditIds db.auditEvents).Nodup

instance (db : Document Payload) : Decidable (Storable db) :=
  decidable_of_iff _ (storable_iff db).symm

/-- Merged with the legacy document, the document stays what it is: it has every key of the legacy
one, and its events are in the order in which they are sorted. -/
@[mk_iff]
structure Merges (db : Document Payload) : Prop where
  installations : ∀ id ∈ legacy.installations.keys, id ∈ db.installations.keys
  users : ∀ email ∈ legacy.users.keys, email ∈ db.users.keys
  sessions : ∀ token ∈ legacy.sessions.keys, token ∈ db.sessions.keys
  auditEvents : ∀ id ∈ auditIds legacy.auditEvents, id ∈ auditIds db.auditEvents
  sorted : db.auditEvents.Pairwise fun a b =>
    precedes collation a b ∧ ¬precedes collation b a

instance (db : Document Payload) : Decidable (Merges collation legacy db) :=
  decidable_of_iff _ (merges_iff collation legacy db).symm

/-- The stored events that the document keeps come first in it, and in the order of their rows. -/
def Continues (tables : Tables Payload) (db : Document Payload) : Prop :=
  KeyedTable.among tables.auditEvents.keys (auditIds db.auditEvents) ++
    KeyedTable.apart (auditIds db.auditEvents) tables.auditEvents.keys = auditIds db.auditEvents

/-- What the mode reads has the events in their order. -/
def Ordered (mode : Mode) (tables : Tables Payload) (db : Document Payload) : Prop :=
  match mode with
  | .pg => tables.auditEvents.rows.map Prod.snd = db.auditEvents
  | .dual => Merges collation legacy db

instance [DecidableEq Payload] (mode : Mode) (tables : Tables Payload) (db : Document Payload) :
    Decidable (Ordered collation legacy mode tables db) :=
  match mode with
  | .pg => inferInstanceAs (Decidable (tables.auditEvents.rows.map Prod.snd = db.auditEvents))
  | .dual => inferInstanceAs (Decidable (Merges collation legacy db))

/-- What the next stage needs of the legacy document, and of what was saved. -/
def Due (s : System Payload) : Prop :=
  match s.initPromise with
  | .pending .readMarker =>
    s.tables.migration = true → Ordered collation legacy s.mode s.tables s.expected
  | .pending .migration =>
    Storable legacy ∧ legacy.release.join = none ∧ legacy.releaseHistorico.getD [] = []
  | .pending .writeMarker => s.mode = .dual → Merges collation legacy legacy
  | _ => True

instance [DecidableEq Payload] (s : System Payload) : Decidable (Due collation legacy s) := by
  unfold Due
  split <;> infer_instance

/-- What the mode needs of a document, to read it back in its order. -/
def Readable (s : System Payload) (db : Document Payload) : Prop :=
  match s.mode with
  | .pg => Continues s.tables db
  | .dual => Merges collation legacy db

instance (s : System Payload) (db : Document Payload) :
    Decidable (Readable collation legacy s db) := by
  unfold Readable Continues
  split <;> infer_instance

/-- No stage of the initialisation fails, the legacy document is kept as it is and has no release,
and what is saved can be held and is read back in the mode as it was. -/
def Orderly (s : System Payload) : Step Payload → Prop
  | .call => True
  | .advance works => works = true ∧ Due collation legacy s
  | .save db works => works = true →
    taken (documentRows db ++ metaRows db) = true ∧ Storable db ∧ Readable collation legacy s db
  | .restart _ => True

instance [DecidableEq Payload] (s : System Payload) (a : Step Payload) :
    Decidable (Orderly collation legacy s a) :=
  match a with
  | .call | .restart _ => isTrue trivial
  | .advance _ => inferInstanceAs (Decidable (_ ∧ Due collation legacy s))
  | .save db _ => inferInstanceAs (Decidable (_ → _ ∧ Storable db ∧ Readable collation legacy s db))

end Promise

end DracVms.Datastore
