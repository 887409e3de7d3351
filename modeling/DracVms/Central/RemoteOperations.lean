import DracVms.Library.JsString

namespace DracVms.RemoteOperations

open Json (Text)
open JsString (trim sliceUnits)

abbrev Instant := ℕ

inductive Status where
  | pending
  | running
  | succeeded
  | failed
  | timedOut
  deriving DecidableEq

structure ActionInfo where
  timeoutMs : Option ℕ

/-- The table of the actions with the time that each one may take. -/
def actions : List (Text × ℕ) :=
  [("update".toList, 30 * 60 * 1000), ("restart_web".toList, 3 * 60 * 1000),
    ("restart_api".toList, 3 * 60 * 1000), ("restart_mediamtx".toList, 3 * 60 * 1000),
    ("restart_rtmp".toList, 3 * 60 * 1000), ("restart_ai".toList, 5 * 60 * 1000),
    ("restart_stack".toList, 8 * 60 * 1000), ("restart_docker".toList, 10 * 60 * 1000)]

/-- What the table inherits from every object: the lookup finds it too, without a timeout. -/
def inheritedNames : List Text :=
  ["constructor".toList, "toString".toList, "toLocaleString".toList, "valueOf".toList,
    "hasOwnProperty".toList, "isPrototypeOf".toList, "propertyIsEnumerable".toList,
    "__proto__".toList, "__defineGetter__".toList, "__defineSetter__".toList,
    "__lookupGetter__".toList, "__lookupSetter__".toList]

def maxHistory : ℕ := 40

def actionInfo (action : Text) : Option ActionInfo :=
  match actions.find? fun entry => entry.1 = action with
  | some entry => some { timeoutMs := some entry.2 }
  | none => if action ∈ inheritedNames then some { timeoutMs := none } else none

/-- `String(value || '')` of a field that may be missing. -/
def textOf (value : Option Text) : Text := value.getD []

/-- `text || null`. -/
def orNull (text : Text) : Option Text := if text = [] then none else some text

def normalizeAction (action : Option Text) : Option Text :=
  let value := trim (textOf action)
  if (actionInfo value).isSome then some value else none

structure Operation where
  id : ℕ
  action : Text
  targetCommit : Option Text
  status : Status
  requestedAt : Instant
  requestedBy : Option Text
  startedAt : Option Instant
  finishedAt : Option Instant
  expiresAt : Option Instant
  result : Option Text
  error : Option Text
  leaseToken : Option Text
  deriving DecidableEq

/-- Pending or running. -/
def Operation.active (operation : Operation) : Bool :=
  operation.status = .pending || operation.status = .running

def timeoutMessage : Text :=
  ("A instalação não confirmou o resultado dentro do prazo. " ++
    "Nenhuma repetição automática foi feita.").toList

def expireOne (now : Instant) (operation : Operation) : Operation :=
  match operation.status, operation.expiresAt with
  | .running, some expiresAt =>
    if now < expiresAt then operation
    else { operation with
      status := .timedOut, finishedAt := some now, error := some timeoutMessage,
      leaseToken := none }
  | _, _ => operation

def expireTimedOut (operations : List Operation) (now : Instant) : List Operation :=
  operations.map (expireOne now)

structure NewOperation where
  id : ℕ
  action : Option Text
  requestedBy : Text
  targetCommit : Option Text
  now : Instant

/-- A refusal, or the operations with the new one at the end and it itself. -/
def enqueue (existing : List Operation) (request : NewOperation) :
    Except String (List Operation × Operation) :=
  match normalizeAction request.action with
  | none => .error "invalid_operation"
  | some normalized =>
    if existing.any Operation.active then .error "operation_already_pending"
    else
      let operation : Operation :=
        { id := request.id, action := normalized,
          targetCommit := orNull (textOf request.targetCommit), status := .pending,
          requestedAt := request.now,
          requestedBy := orNull (sliceUnits 240 request.requestedBy),
          startedAt := none, finishedAt := none, expiresAt := none, result := none,
          error := none, leaseToken := none }
      let all := existing ++ [operation]
      .ok (all.drop (all.length - maxHistory), operation)

/-- Changes the first entry that meets the test, as a found object is changed in place. -/
def changeFirst (test : Operation → Bool) (change : Operation → Operation) :
    List Operation → List Operation
  | [] => []
  | entry :: rest =>
    if test entry then change entry :: rest else entry :: changeFirst test change rest

def start (leaseToken : Text) (now : Instant) (operation : Operation) : Operation :=
  let timeoutMs := ((actionInfo operation.action).bind ActionInfo.timeoutMs).getD (5 * 60 * 1000)
  { operation with
    status := .running, startedAt := some now, expiresAt := some (now + timeoutMs),
    leaseToken := some leaseToken }

def isPending (operation : Operation) : Bool := operation.status = .pending

def claim (operations : List Operation) (leaseToken : Text) (now : Instant) :
    List Operation × Option Operation :=
  let expired := expireTimedOut operations now
  match expired.find? isPending with
  | none => (expired, none)
  | some operation =>
    (changeFirst isPending (start leaseToken now) expired, some (start leaseToken now operation))

structure Answer where
  leaseToken : Option Text
  status : Option Text
  result : Option Text
  error : Option Text

/-- The two results that an installation may report. -/
def reportedStatus (status : Text) : Option Status :=
  if status = "SUCCEEDED".toList then some .succeeded
  else if status = "FAILED".toList then some .failed
  else none

def close (status : Status) (answer : Answer) (now : Instant) (operation : Operation) : Operation :=
  { operation with
    status := status, finishedAt := some now,
    result := orNull (sliceUnits 4000 (textOf answer.result)),
    error := orNull (sliceUnits 1000 (textOf answer.error)), leaseToken := none }

def finish (operations : List Operation) (operationId : ℕ) (answer : Answer) (now : Instant) :
    Except String (List Operation) :=
  match operations.find? fun entry => entry.id = operationId with
  | none => .error "operation_not_found"
  | some operation =>
    if operation.status ≠ .running then .error "operation_not_running"
    else if textOf operation.leaseToken ≠ textOf answer.leaseToken then
      .error "invalid_operation_lease"
    else
      match reportedStatus (textOf answer.status) with
      | none => .error "invalid_operation_result"
      | some status =>
        let named : Operation → Bool := fun entry => entry.id = operationId
        .ok (changeFirst named (close status answer now) operations)

/-- An installation as the Central holds it. The last two fields record the operations that claims
handed out and the results that were accepted, each with its token. -/
structure Installation where
  operations : List Operation
  nextId : ℕ
  handed : List (ℕ × Text)
  accepted : List (ℕ × Text)

def Installation.new : Installation :=
  { operations := [], nextId := 0, handed := [], accepted := [] }

structure QueueRequest where
  action : Option Text
  confirmation : Option Text
  actorEmail : Text

/-- The queueing of an operation from the panel; `saved` says whether the document was written. -/
def handleQueueOperation (installation : Installation) (body : QueueRequest)
    (releaseCommit : Option Text) (expiredAt now : Instant) (saved : Bool) : Installation :=
  match normalizeAction body.action with
  | none => installation
  | some action =>
    if textOf body.confirmation ≠ action then installation
    else if action = "update".toList ∧ orNull (textOf releaseCommit) = none then installation
    else
      let request : NewOperation :=
        { id := installation.nextId, action := some action, requestedBy := body.actorEmail,
          targetCommit := if action = "update".toList then releaseCommit else none, now := now }
      match enqueue (expireTimedOut installation.operations expiredAt) request with
      | .error _ => installation
      | .ok (operations, _) =>
        if saved then
          { installation with operations := operations, nextId := installation.nextId + 1 }
        else installation

def handleClaimOperation (installation : Installation) (leaseToken : Text) (now : Instant)
    (saved : Bool) : Installation :=
  let (operations, operation) := claim installation.operations leaseToken now
  if saved then
    { installation with
      operations := operations
      handed := installation.handed ++ (operation.map fun entry => (entry.id, leaseToken)).toList }
  else installation

def handleOperationResult (installation : Installation) (operationId : ℕ) (answer : Answer)
    (now : Instant) (saved : Bool) : Installation :=
  match finish installation.operations operationId answer now with
  | .error _ => installation
  | .ok operations =>
    if saved then
      { installation with
        operations := operations
        accepted := installation.accepted ++ [(operationId, textOf answer.leaseToken)] }
    else installation

inductive Event where
  | queue (body : QueueRequest) (releaseCommit : Option Text) (expiredAt now : Instant)
      (saved : Bool)
  | claim (leaseToken : Text) (now : Instant) (saved : Bool)
  | result (operationId : ℕ) (answer : Answer) (now : Instant) (saved : Bool)
  | expire (now : Instant)
  | restart

/-- One step. The agent that restarts has forgotten what it was given; the Central has not. -/
def step (installation : Installation) : Event → Installation
  | .queue body releaseCommit expiredAt now saved =>
    handleQueueOperation installation body releaseCommit expiredAt now saved
  | .claim leaseToken now saved => handleClaimOperation installation leaseToken now saved
  | .result operationId answer now saved =>
    handleOperationResult installation operationId answer now saved
  | .expire now =>
    { installation with operations := expireTimedOut installation.operations now }
  | .restart => installation

/-- The installation after the first `n` events of a run. -/
def after (events : List Event) (n : ℕ) : Installation :=
  (events.take n).foldl step Installation.new

end DracVms.RemoteOperations
