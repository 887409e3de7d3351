import DracVms.Library.Binary64
import DracVms.Library.KeyedList

namespace DracVms.Scheduler

open Json (Text field setField)
open JsString (trim toLowerCase unitsLe)
open KeyedList (updateAt lookup)
open Binary64 (double)

inductive Health where
  | alive
  | unknown
  | draining
  | dead
  deriving DecidableEq

inductive Reason where
  | new
  | nodeRemoved
  | nodeDead
  | capacity
  | draining
  | noCapacity
  deriving DecidableEq

/-- A partial configuration, each field by the finite number it reads as. Weights, capacities and
seconds are doubles. -/
structure RawConfig where
  leaseTtlSeconds : Option Rat
  nodeDeadAfterSeconds : Option Rat
  defaultNodeCapacity : Option Rat
  drainBatch : Option Rat

structure Config where
  leaseTtlSeconds : Rat
  nodeDeadAfterSeconds : Rat
  defaultNodeCapacity : Rat
  drainBatch : Rat

def defaultSchedulerConfig : Config := ⟨120, 180, 16, 1⟩

def readNumber (value : Option Rat) (min : Rat) : Option Rat :=
  match value with
  | none => none
  | some n => if double n < min then none else some (double n)

def resolveSchedulerConfig (input : RawConfig) : Config where
  leaseTtlSeconds := (readNumber input.leaseTtlSeconds 1).getD
    defaultSchedulerConfig.leaseTtlSeconds
  nodeDeadAfterSeconds := (readNumber input.nodeDeadAfterSeconds 1).getD
    defaultSchedulerConfig.nodeDeadAfterSeconds
  defaultNodeCapacity := (readNumber input.defaultNodeCapacity 0).getD
    defaultSchedulerConfig.defaultNodeCapacity
  drainBatch := (readNumber input.drainBatch 0).getD defaultSchedulerConfig.drainBatch

/-- A workload as it was sent: the string of its id, and its weight when that is finite. -/
structure RawWorkload where
  id : Text
  weight : Option Rat

structure Workload where
  id : Text
  weight : Rat

def weightOf (weight : Option Rat) : Rat :=
  match weight with
  | none => 1
  | some w => if 0 < double w then double w else 1

/-- The last record of an id wins. -/
def normalizeWorkloads (input : List RawWorkload) : List Workload :=
  (input.foldl (fun byId raw =>
    if trim raw.id = [] then byId else setField byId (trim raw.id, weightOf raw.weight)) []).map
      fun entry => ⟨entry.1, entry.2⟩

/-- The heavy workloads first, then by id. -/
def workloadBefore (a b : Workload) : Prop :=
  b.weight < a.weight ∨ a.weight = b.weight ∧ unitsLe a.id b.id = true

instance (a b : Workload) : Decidable (workloadBefore a b) := inferInstanceAs (Decidable (_ ∨ _))

def orderWorkloads (list : List Workload) : List Workload := list.insertionSort workloadBefore

structure RawNodeState where
  lastSeenAt : Option Rat
  draining : Bool
  down : Bool
  status : Text

structure NodeState where
  lastSeenAt : Option Rat
  draining : Bool
  down : Bool

def drainingWord : Text := "draining".toList

def downWords : List Text := ["down".toList, "dead".toList, "offline".toList]

def normalizeNodeState (raw : RawNodeState) : NodeState where
  lastSeenAt := raw.lastSeenAt
  draining := raw.draining || toLowerCase (trim raw.status) = drainingWord
  down := raw.down || toLowerCase (trim raw.status) ∈ downWords

/-- The states by node, from the entries of an object in their order. -/
def normalizeNodeStates (entries : List (Text × RawNodeState)) : List (Text × NodeState) :=
  entries.foldl (fun out entry =>
    if trim entry.1 = [] then out else setField out (trim entry.1, normalizeNodeState entry.2)) []

/-- A node that never reported is unknown, not dead. -/
def nodeHealth (state : Option NodeState) (nowMs : Rat) (config : Config) : Health :=
  match state with
  | none => .unknown
  | some state =>
    if state.down then .dead
    else
      match state.lastSeenAt with
      | none => if state.draining then .draining else .unknown
      | some seen =>
        if config.nodeDeadAfterSeconds < double (double (nowMs - seen) / 1000) then .dead
        else if state.draining then .draining
        else .alive

inductive RawCapacity where
  | number (n : Rat)
  | object (maxCameras : Option Rat)
  | other

def normalizeCapacity : RawCapacity → Option Rat
  | .number n => if 0 ≤ n then some (double n) else none
  | .object (some n) => if 0 ≤ n then some (double n) else none
  | .object none => none
  | .other => none

structure RawNode where
  id : Text
  capacity : RawCapacity

structure ComputeNode where
  id : Text
  capacity : Option Rat

def normalizeComputeNodes (input : List RawNode) : List ComputeNode :=
  input.map fun raw => ⟨trim raw.id, normalizeCapacity raw.capacity⟩

/-- A token as it was stored. Only a finite number can be one. -/
inductive StoredToken where
  | number (n : Rat)
  | null
  | invalid
  deriving DecidableEq

/-- `Number(token)`, none for NaN. -/
def StoredToken.toNumber : StoredToken → Option Rat
  | .number n => some n
  | .null => some 0
  | .invalid => none

structure StoredAssignment where
  cameraId : Text
  nodeId : Text
  token : StoredToken
  leaseExpiresAt : Option Int

/-- A plan read back from the register of the installation. -/
structure StoredPlan where
  assignments : List StoredAssignment
  revoked : List StoredToken
  nextToken : Option Rat
  epoch : Option Rat

inductive Previous where
  | absent
  | list (assignments : List StoredAssignment)
  | plan (plan : StoredPlan)
  | registry (entries : List (Text × Text))

structure PreviousEntry where
  nodeId : Text
  token : Option Rat

structure PreviousState where
  byCamera : List (Text × PreviousEntry)
  nextToken : Rat
  epoch : Rat

/-- A number that is finite and positive. -/
def positive (n : Option Rat) : Option Rat :=
  match n with
  | none => none
  | some n => if 0 < n then some n else none

def previousEntry (byCamera : List (Text × PreviousEntry)) (cameraId nodeId : Text)
    (token : Option Rat) : List (Text × PreviousEntry) :=
  if trim cameraId = [] ∨ trim nodeId = [] then byCamera
  else setField byCamera (trim cameraId, ⟨trim nodeId, token⟩)

def previousOfList (assignments : List StoredAssignment) : List (Text × PreviousEntry) :=
  assignments.foldl (fun byCamera raw =>
    previousEntry byCamera raw.cameraId raw.nodeId (positive raw.token.toNumber)) []

/-- The next token has to be above every token already issued. -/
def raiseToken (nextToken : Rat) (entry : Text × PreviousEntry) : Rat :=
  match entry.2.token with
  | none => nextToken
  | some token => if nextToken ≤ token then token + 1 else nextToken

def normalizePrevious : Previous → PreviousState
  | .absent => ⟨[], 0, 0⟩
  | .list assignments =>
    let byCamera := previousOfList assignments
    ⟨byCamera, byCamera.foldl raiseToken 0, 0⟩
  | .plan plan =>
    let byCamera := previousOfList plan.assignments
    ⟨byCamera, byCamera.foldl raiseToken ((positive plan.nextToken).getD 0),
      (positive plan.epoch).getD 0⟩
  | .registry entries =>
    ⟨entries.foldl (fun byCamera raw => previousEntry byCamera raw.1 raw.2 none) [], 0, 0⟩

structure Node where
  id : Text
  declaredCapacity : Option Rat
  capacity : Rat
  health : Health
  load : Rat
  cameras : List Text

structure Record where
  id : Text
  weight : Rat
  nodeId : Option Text
  previousNodeId : Option Text
  previousToken : Option Rat
  reason : Option Reason

def isPlaceable (node : Node) : Bool := node.health = .alive ∨ node.health = .unknown

def canRetain (node : Node) : Bool := node.health ≠ .dead

/-- The nodes in the order of their ids, a duplicate or an empty id left out. -/
def buildNodes (config : Config) (states : List (Text × NodeState)) (nowMs : Rat)
    (registry : List RawNode) : List Node :=
  ((normalizeComputeNodes registry).insertionSort fun a b => unitsLe a.id b.id = true).foldl
    (fun nodes raw =>
      if raw.id = [] ∨ raw.id ∈ nodes.map Node.id then nodes
      else nodes ++ [{
        id := raw.id
        declaredCapacity := raw.capacity
        capacity := raw.capacity.getD config.defaultNodeCapacity
        health := nodeHealth (field states raw.id) nowMs config
        load := 0
        cameras := [] }]) []

/-- One node of `pickTarget`: the least projected use wins, the first of equal ones. -/
def better (weight : Rat) (best : Option (Node × Rat)) (node : Node) : Option (Node × Rat) :=
  if !isPlaceable node then best
  else
    let projected := double (node.load + weight)
    if node.capacity < projected then best
    else
      let score := double (projected / node.capacity)
      match best with
      | none => some (node, score)
      | some (_, bestScore) => if score < bestScore then some (node, score) else best

def pickTarget (nodes : List Node) (weight : Rat) : Option Node :=
  (nodes.foldl (better weight) none).map Prod.fst

/-- The nodes and the records, which every phase changes. -/
structure Fleet where
  nodes : List Node
  records : List Record

def Fleet.place (fleet : Fleet) (nodeId recordId : Text) (weight : Rat) : Fleet where
  nodes := updateAt Node.id fleet.nodes nodeId fun node =>
    { node with load := double (node.load + weight), cameras := node.cameras ++ [recordId] }
  records := updateAt Record.id fleet.records recordId fun record =>
    { record with nodeId := some nodeId }

def Fleet.release (fleet : Fleet) (nodeId recordId : Text) (weight : Rat) : Fleet where
  nodes := updateAt Node.id fleet.nodes nodeId fun node =>
    { node with load := double (node.load - weight), cameras := node.cameras.erase recordId }
  records := updateAt Record.id fleet.records recordId fun record => { record with nodeId := none }

def Fleet.giveReason (fleet : Fleet) (recordId : Text) (reason : Reason) : Fleet where
  nodes := fleet.nodes
  records := updateAt Record.id fleet.records recordId fun record =>
    { record with reason := some reason }

def Workload.record (workload : Workload) (previous : Option PreviousEntry) : Record where
  id := workload.id
  weight := workload.weight
  nodeId := none
  previousNodeId := previous.map PreviousEntry.nodeId
  previousToken := previous.bind PreviousEntry.token
  reason := none

/-- Phase 1, for one workload: stay where it was, or wait in the queue with a reason. -/
def retain (previous : PreviousState) (so : Fleet × List Record) (workload : Workload) :
    Fleet × List Record :=
  let prev := field previous.byCamera workload.id
  let record := workload.record prev
  let wait (reason : Reason) : Fleet × List Record :=
    let waiting := { record with reason := some reason }
    ({ so.1 with records := so.1.records ++ [waiting] }, so.2 ++ [waiting])
  match prev with
  | none => wait .new
  | some entry =>
    match lookup Node.id so.1.nodes entry.nodeId with
    | none => wait .nodeRemoved
    | some node =>
      if !canRetain node then wait .nodeDead
      else if node.capacity < double (node.load + record.weight) then wait .capacity
      else
        (Fleet.place { so.1 with records := so.1.records ++ [record] } node.id record.id
          record.weight, so.2)

/-- Phase 2, for one waiting record. -/
def placeDeferred (fleet : Fleet) (record : Record) : Fleet :=
  match pickTarget fleet.nodes record.weight with
  | none => fleet
  | some target => fleet.place target.id record.id record.weight

/-- Phase 3, for one camera of a draining node, with the number of cameras moved so far. -/
def drainCamera (drainBatch : Rat) (nodeId : Text) (so : Fleet × Nat) (cameraId : Text) :
    Fleet × Nat :=
  if drainBatch ≤ so.2 then so
  else
    match lookup Record.id so.1.records cameraId with
    | none => so
    | some record =>
      match pickTarget so.1.nodes record.weight with
      | none => so
      | some target =>
        (((so.1.release nodeId record.id record.weight).place target.id record.id
          record.weight).giveReason record.id .draining, so.2 + 1)

def drainNode (drainBatch : Rat) (fleet : Fleet) (nodeId : Text) : Fleet :=
  match lookup Node.id fleet.nodes nodeId with
  | none => fleet
  | some node =>
    if node.health = .draining then
      (node.cameras.foldl (drainCamera drainBatch nodeId) (fleet, 0)).1
    else fleet

/-- The three phases. -/
def assignNodes (config : Config) (nodes : List Node) (previous : PreviousState)
    (workloads : List Workload) : Fleet :=
  let (retained, deferred) := workloads.foldl (retain previous) (⟨nodes, []⟩, [])
  let placed := deferred.foldl placeDeferred retained
  (placed.nodes.map Node.id).foldl (drainNode config.drainBatch) placed

structure Assignment where
  cameraId : Text
  nodeId : Text
  weight : Rat
  token : Rat
  leaseExpiresAt : Int

structure Unassigned where
  cameraId : Text
  weight : Rat
  reason : Reason
  previousNodeId : Option Text

structure Migration where
  cameraId : Text
  source : Text
  target : Text
  reason : Reason

structure Revocation where
  cameraId : Text
  nodeId : Text
  token : Option Rat
  reason : Reason

structure Plan where
  installationId : Option Text
  generatedAt : Int
  epoch : Rat
  nextToken : Rat
  leaseTtlSeconds : Rat
  nodes : List Node
  assignments : List Assignment
  unassigned : List Unassigned
  migrations : List Migration
  revoked : List Revocation

def byId (records : List Record) : List Record :=
  records.insertionSort fun a b => unitsLe a.id b.id = true

/-- Phase 4: a kept owner keeps its token, any other gets the next one. -/
def issueTokens (leaseExpiresAt : Int) : Rat → List Record → List Assignment × Rat
  | nextToken, [] => ([], nextToken)
  | nextToken, record :: rest =>
    match record.nodeId with
    | none => issueTokens leaseExpiresAt nextToken rest
    | some nodeId =>
      let assign (token : Rat) : Assignment :=
        ⟨record.id, nodeId, record.weight, token, leaseExpiresAt⟩
      let issue : List Assignment × Rat :=
        let (later, last) := issueTokens leaseExpiresAt (nextToken + 1) rest
        (assign nextToken :: later, last)
      match record.previousToken with
      | none => issue
      | some token =>
        if record.previousNodeId = some nodeId then
          let (later, last) := issueTokens leaseExpiresAt nextToken rest
          (assign token :: later, last)
        else issue

def unassignedOf (record : Record) : Option Unassigned :=
  match record.nodeId with
  | some _ => none
  | none =>
    some ⟨record.id, record.weight,
      (if record.reason = some .new then .noCapacity else record.reason.getD .noCapacity),
      record.previousNodeId⟩

def migrationOf (record : Record) : Option Migration :=
  match record.previousNodeId, record.nodeId with
  | some source, some target =>
    if target = source then none
    else some ⟨record.id, source, target, record.reason.getD .capacity⟩
  | _, _ => none

def revocationOf (record : Record) : Option Revocation :=
  match record.previousNodeId with
  | none => none
  | some source =>
    if record.nodeId = some source then none
    else some ⟨record.id, source, record.previousToken, record.reason.getD .capacity⟩

structure Options where
  installationId : Option Text
  config : RawConfig
  now : Option Rat
  nodeStates : List (Text × RawNodeState)
  nodes : List RawNode
  workloads : List RawWorkload
  previous : Previous

inductive PlanError where
  | now
  | date
  deriving DecidableEq

/-- `new Date(ms)`, by its whole milliseconds. Beyond its range `toISOString` throws. -/
def dateOf (ms : Rat) : Option Int :=
  if -8640000000000000 ≤ ms ∧ ms ≤ 8640000000000000 then
    some (if 0 ≤ ms then ms.floor else ms.ceil)
  else none

def leaseEnd (config : Config) (nowMs : Rat) : Option Int :=
  dateOf (double (nowMs + double (config.leaseTtlSeconds * 1000)))

/-- The normalised input after the three phases. -/
def planFleet (options : Options) (nowMs : Rat) : Fleet :=
  let config := resolveSchedulerConfig options.config
  let states := normalizeNodeStates options.nodeStates
  let nodes := buildNodes config states nowMs options.nodes
  let workloads := orderWorkloads (normalizeWorkloads options.workloads)
  assignNodes config nodes (normalizePrevious options.previous) workloads

def planAssignments (options : Options) : Except PlanError Plan :=
  let config := resolveSchedulerConfig options.config
  match options.now with
  | none => .error .now
  | some nowMs =>
    let previous := normalizePrevious options.previous
    let fleet := planFleet options nowMs
    match leaseEnd config nowMs, dateOf nowMs with
    | some leaseExpiresAt, some generatedAt =>
      let records := byId fleet.records
      let (assignments, nextToken) :=
        issueTokens leaseExpiresAt (max previous.nextToken 1) records
      .ok {
        installationId := options.installationId
        generatedAt := generatedAt
        epoch := previous.epoch + 1
        nextToken := nextToken
        leaseTtlSeconds := config.leaseTtlSeconds
        nodes := fleet.nodes.map fun node =>
          { node with cameras := node.cameras.insertionSort fun a b => unitsLe a b = true }
        assignments := assignments
        unassigned := records.filterMap unassignedOf
        migrations := records.filterMap migrationOf
        revoked := records.filterMap revocationOf }
    | _, _ => .error .date

end DracVms.Scheduler
