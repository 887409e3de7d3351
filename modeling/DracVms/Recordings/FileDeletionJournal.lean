import DracVms.Library.JsonText

namespace DracVms.FileDeletion

open Json

/-- An absolute path, by its components. -/
abbrev Path := List Text

inductive GuardModel where
  | recording
  | exportedClip
  deriving DecidableEq

def GuardModel.name : GuardModel → Text
  | .recording => "recording".toList
  | .exportedClip => "exportedClip".toList

structure DeletionGuard where
  model : GuardModel
  id : Text
  deriving DecidableEq

structure JournalEntry where
  originalRelative : Text
  quarantineRelative : Text
  deriving DecidableEq

structure DeletionJournal where
  operationId : Text
  createdAt : Text
  guards : List DeletionGuard
  entries : List JournalEntry

def journalDir : Text := ".drac-file-deletions".toList

def journalFile : Text := "journal.json".toList

def filesDir : Text := "files".toList

def components (text : Text) : List Text := text.splitOn '/'

/-- One component of a path, below the directory reached so far. -/
def descend (reached : Path) (component : Text) : Path :=
  if component = [] ∨ component = ['.'] then reached
  else if component = ['.', '.'] then reached.dropLast
  else reached ++ [component]

/-- `join(root, text)` -/
def join (root : Path) (text : Text) : Path := (components text).foldl descend root

def isAbsolute (text : Text) : Bool := text.head? == some '/'

/-- `resolve` of a candidate: an absolute one stands by itself. -/
def resolve (root : Path) (candidate : Text) : Path :=
  if isAbsolute candidate then join [] candidate else join root candidate

inductive StageError where
  | root
  | journal
  | outside
  deriving DecidableEq

def StageError.message : StageError → String
  | .root => "A raiz de gravações não pode ser movida ou removida."
  | .journal => "O journal de exclusão não pode ser alvo de exclusão."
  | .outside => "Artefato fora da raiz de gravações."

/-- The path relative to the root, for what may be moved. -/
def assertUnderRoot (root absolute : Path) : Except StageError Path :=
  if absolute = root then .error .root
  else if root <+: absolute then
    let rel := absolute.drop root.length
    if rel.head? = some journalDir then .error .journal else .ok rel
  else .error .outside

def relativeText (rel : Path) : Text := ['/'].intercalate rel

/-- `String(index).padStart(8, '0')` -/
def padStart (index : Nat) : Text :=
  let digits := Nat.toDigits 10 index
  List.replicate (8 - digits.length) '0' ++ digits

def quarantineRelative (operationId : Text) (index : Nat) : Text :=
  relativeText [journalDir, operationId, filesDir, padStart index]

/-- The journal that `stageFileDeletion` writes, or the refusal of a candidate. -/
def planJournal (root : Path) (operationId createdAt : Text) (candidates : List Text)
    (guards : List DeletionGuard) : Except StageError DeletionJournal :=
  match candidates.mapM fun candidate => assertUnderRoot root (resolve root candidate) with
  | .error refusal => .error refusal
  | .ok relatives => .ok {
      operationId := operationId
      createdAt := createdAt
      guards := guards
      entries := ((relatives.map relativeText).eraseDups).zipIdx.map fun numbered =>
        ⟨numbered.1, quarantineRelative operationId numbered.2⟩ }

def versionKey : Text := "version".toList

def operationIdKey : Text := "operationId".toList

def createdAtKey : Text := "createdAt".toList

def guardsKey : Text := "guards".toList

def entriesKey : Text := "entries".toList

def modelKey : Text := "model".toList

def idKey : Text := "id".toList

def originalKey : Text := "originalRelative".toList

def quarantineKey : Text := "quarantineRelative".toList

section Text

variable (format : NumberFormat) (one : format.Number)

def string (text : Text) : Value (Scalar format.Number) := .atom (.string text)

def guardValue (guard : DeletionGuard) : Value (Scalar format.Number) :=
  .object [(modelKey, string format guard.model.name), (idKey, string format guard.id)]

def entryValue (entry : JournalEntry) : Value (Scalar format.Number) :=
  .object [(originalKey, string format entry.originalRelative),
    (quarantineKey, string format entry.quarantineRelative)]

def journalValue (journal : DeletionJournal) : Value (Scalar format.Number) :=
  .object [(versionKey, .atom (.number one)),
    (operationIdKey, string format journal.operationId),
    (createdAtKey, string format journal.createdAt),
    (guardsKey, .array (journal.guards.map (guardValue format))),
    (entriesKey, .array (journal.entries.map (entryValue format)))]

/-- What `writeDurableJournal` writes. -/
def journalText (journal : DeletionJournal) : Text :=
  stringify (scalarSyntax format) (journalValue format one journal) ++ ['\n']

variable [DecidableEq format.Number]

/-- What the recovery takes from a journal. -/
structure ReadJournal where
  guards : List DeletionGuard
  entries : List JournalEntry

def textOf : Value (Scalar format.Number) → Option Text
  | .atom (.string text) => some text
  | _ => none

def isUuidChar (c : Char) : Bool := (hexValue c).isSome || c == '-'

/-- `/^[0-9a-f]{8}-[0-9a-f-]{27}$/i` -/
def isOperationId (text : Text) : Bool :=
  text.length == 36 && (text.take 8).all (fun c => (hexValue c).isSome) &&
    text[8]? == some '-' && text.all isUuidChar

/-- One entry of `validateJournal`. -/
def readEntry (root : Path) (operationId : Text) (value : Value (Scalar format.Number)) :
    Option JournalEntry :=
  match value with
  | .object fields =>
    match (field fields originalKey).bind (textOf format),
        (field fields quarantineKey).bind (textOf format) with
    | some original, some quarantine =>
      if isAbsolute original || isAbsolute quarantine then none
      else
        match assertUnderRoot root (join root original) with
        | .error _ => none
        | .ok _ =>
          if root ++ [journalDir, operationId, filesDir] <+: join root quarantine then
            some ⟨original, quarantine⟩
          else none
    | _, _ => none
  | _ => none

def modelOf (name : Text) : Option GuardModel :=
  if name = GuardModel.recording.name then some .recording
  else if name = GuardModel.exportedClip.name then some .exportedClip
  else none

def readGuard (value : Value (Scalar format.Number)) : Option DeletionGuard :=
  match value with
  | .object fields =>
    match ((field fields modelKey).bind (textOf format)).bind modelOf,
        (field fields idKey).bind (textOf format) with
    | some model, some id =>
      if id ≠ [] ∧ utf16Length id ≤ 256 then some ⟨model, id⟩ else none
    | _, _ => none
  | _ => none

/-- The size limit, `JSON.parse` and `validateJournal`. None stands for their exceptions. -/
def readJournal (root : Path) (expectedOperationId raw : Text) : Option ReadJournal :=
  if 1000000 < utf16Length raw then none
  else
    match parse (scalarSyntax format) raw with
    | some (.object fields) =>
      match field fields versionKey, (field fields operationIdKey).bind (textOf format),
          field fields entriesKey, field fields guardsKey with
      | some (.atom (.number version)), some operationId, some (.array entries),
          some (.array guards) =>
          if version = one ∧ operationId = expectedOperationId ∧
              isOperationId operationId = true ∧ entries.length ≤ 100000 ∧
              guards.length ≤ 100000 then
            match entries.mapM (readEntry format root operationId),
                guards.mapM (readGuard format) with
            | some entries, some guards => some ⟨guards, entries⟩
            | _, _ => none
          else none
      | _, _, _, _ => none
    | _ => none

/-- The journals that the recovery will read. Staging checks none of this. -/
structure Acceptable (journal : DeletionJournal) : Prop where
  size : utf16Length (journalText format one journal) ≤ 1000000
  entries : journal.entries.length ≤ 100000
  guards : journal.guards.length ≤ 100000
  ids : ∀ guard ∈ journal.guards, guard.id ≠ [] ∧ utf16Length guard.id ≤ 256

end Text

end DracVms.FileDeletion
