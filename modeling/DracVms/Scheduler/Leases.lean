import DracVms.Scheduler.Plan

namespace DracVms.Scheduler

open Json (Text field setField)
open JsString (trim)

/-- What a saved plan is when it is read back. -/
def Plan.stored (plan : Plan) : StoredPlan where
  assignments := plan.assignments.map fun assignment =>
    ⟨assignment.cameraId, assignment.nodeId, .number assignment.token,
      some assignment.leaseExpiresAt⟩
  revoked := plan.revoked.map fun entry =>
    match entry.token with
    | none => .null
    | some token => .number token
  nextToken := some plan.nextToken
  epoch := some plan.epoch

/-- What a node claims: the strings of the two ids, the token when it is a finite number, and the
time of the check. -/
structure Claim where
  cameraId : Text
  nodeId : Text
  token : Option Rat
  now : Option Int

inductive Answer where
  | ok
  | noPlan
  | unknownCamera
  | invalidClaim
  | staleToken
  | futureToken
  | wrongNode
  | leaseExpired
  deriving DecidableEq

structure Fencing where
  accepted : Bool
  reason : Answer
  current : Option StoredAssignment

def findAssignment (plan : StoredPlan) (cameraId : Text) : Option StoredAssignment :=
  if trim cameraId = [] then none
  else plan.assignments.find? fun assignment => assignment.cameraId = trim cameraId

/-- Neither below nor above, as numbers that may be NaN compare. -/
def compareTokens (token : Rat) (current : Option Rat) : Option Answer :=
  match current with
  | none => none
  | some currentToken =>
    if token < currentToken then some .staleToken
    else if currentToken < token then some .futureToken
    else none

def leaseOver (current : StoredAssignment) (now : Option Int) : Bool :=
  match now, current.leaseExpiresAt with
  | some nowMs, some expiresAt => expiresAt ≤ nowMs
  | _, _ => false

def checkFencing (plan : Option StoredPlan) (claim : Claim) : Fencing :=
  match plan with
  | none => ⟨false, .noPlan, none⟩
  | some plan =>
    match claim.token with
    | none => ⟨false, .invalidClaim, none⟩
    | some token =>
      if trim claim.cameraId = [] ∨ trim claim.nodeId = [] then ⟨false, .invalidClaim, none⟩
      else
        match findAssignment plan (trim claim.cameraId) with
        | none => ⟨false, .unknownCamera, none⟩
        | some current =>
          match compareTokens token current.token.toNumber with
          | some reason => ⟨false, reason, some current⟩
          | none =>
            if current.nodeId ≠ trim claim.nodeId then ⟨false, .wrongNode, some current⟩
            else if leaseOver current claim.now then ⟨false, .leaseExpired, some current⟩
            else ⟨true, .ok, some current⟩

def raiseMax (max : Rat) (token : StoredToken) : Rat :=
  match token.toNumber with
  | none => max
  | some n => if max < n then n else max

def maxIssuedToken (plan : StoredPlan) : Rat :=
  plan.revoked.foldl raiseMax ((plan.assignments.map StoredAssignment.token).foldl raiseMax 0)

/-- One assignment of the next plan: a kept owner has its old token, another a new one. -/
def tokenIsMonotonic (previousMax : Rat) (previousByCamera : List (Text × StoredAssignment))
    (assignment : StoredAssignment) : Bool :=
  match assignment.token.toNumber with
  | none => false
  | some token =>
    if token ≤ 0 then false
    else
      match field previousByCamera assignment.cameraId with
      | none => previousMax < token
      | some before =>
        if before.nodeId = assignment.nodeId then before.token.toNumber = some token
        else previousMax < token

def tokensAreMonotonic (previousPlan nextPlan : StoredPlan) : Bool :=
  let previousByCamera := (previousPlan.assignments.map fun assignment =>
    (assignment.cameraId, assignment)).foldl setField []
  nextPlan.assignments.all (tokenIsMonotonic (maxIssuedToken previousPlan) previousByCamera)

/-- A replanning of the installation: the saved plan is the previous one. -/
def replan (current : StoredPlan) (request : Options) : Except PlanError Plan :=
  planAssignments { request with previous := .plan current }

/-- The saved plan after a request. One that fails saves nothing. -/
def advance (current : StoredPlan) (request : Options) : StoredPlan :=
  match replan current request with
  | .ok plan => plan.stored
  | .error _ => current

def after (start : StoredPlan) (requests : List Options) : StoredPlan :=
  requests.foldl advance start

/-- The owner of a camera keeps its token in the next plan. -/
def keeps (current : StoredPlan) (assignment : Assignment) : Bool :=
  current.assignments.any fun old => decide (old.cameraId = assignment.cameraId ∧
    old.nodeId = assignment.nodeId ∧ old.token = .number assignment.token)

/-- The tokens that the requests issue, one after the other. -/
def issuedTokens : StoredPlan → List Options → List Rat
  | _, [] => []
  | current, request :: rest =>
    match replan current request with
    | .error _ => issuedTokens current rest
    | .ok plan =>
      (plan.assignments.filter fun assignment => !keeps current assignment).map
          Assignment.token ++
        issuedTokens plan.stored rest

end DracVms.Scheduler
