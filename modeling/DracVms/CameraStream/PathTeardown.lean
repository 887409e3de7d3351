import DracVms.Library.Json
import DracVms.Library.KeyedList
import DracVms.Library.Runs

namespace DracVms.PathTeardown

open Json (Text)
open KeyedList (lookup updateAt)

inductive LiveViewMode where
  | grid
  | gridAudio
  | gridHevc
  | original
  | originalAudio
  deriving DecidableEq

def LiveViewMode.all : List LiveViewMode := [grid, gridAudio, gridHevc, original, originalAudio]

def LiveViewMode.suffix : LiveViewMode → Text
  | grid => "_grid".toList
  | gridAudio => "_grid_audio".toList
  | gridHevc => "_grid_hevc".toList
  | original => "_orig".toList
  | originalAudio => "_orig_audio".toList

def isAlphanumeric (c : Char) : Bool :=
  ('a' ≤ c && c ≤ 'z') || ('A' ≤ c && c ≤ 'Z') || ('0' ≤ c && c ≤ '9')

/-- The path of older versions, and the start of the others. -/
def legacyPath (cameraId : Text) : Text := "cam_".toList ++ cameraId.filter isAlphanumeric

def pathNameFromCameraId (cameraId : Text) (mode : LiveViewMode) : Text :=
  legacyPath cameraId ++ mode.suffix

def privateSourcePathName (pathName : Text) : Text := pathName ++ "_source".toList

/-- What a teardown does, one await after the other. -/
inductive Order where
  | forget (mode : LiveViewMode)
  | delete (pathName : Text)
  | invalidate
  deriving DecidableEq

def teardownPathsForCamera (cameraId : Text) : List Order :=
  (LiveViewMode.all.flatMap fun mode =>
    let pathName := pathNameFromCameraId cameraId mode
    [.forget mode, .delete pathName, .delete (privateSourcePathName pathName)]) ++
  [.delete (legacyPath cameraId), .delete (privateSourcePathName (legacyPath cameraId)),
    .invalidate]

/-! The state. -/

inductive Status where
  | enabled
  | disabled
  | deleted
  deriving DecidableEq

/-- The row of a camera. Which request switched it off, and after how many calls, are what the row
does not tell. -/
structure Camera where
  id : Text
  status : Status
  disabledBy : ℕ
  since : ℕ
  deriving DecidableEq

/-- Where a preparation of a path is. -/
inductive Phase where
  | reading
  /-- The camera is switched off: its paths are taken down, then the preparation throws. -/
  | refused (orders : List Order)
  | resolving
  | lookingSource
  | deletingSource
  | addingSource
  | looking
  | deleting
  | adding
  | settling
  deriving DecidableEq

structure Preparation where
  token : ℕ
  cameraId : Text
  mode : LiveViewMode
  phase : Phase
  deriving DecidableEq

/-- What a request of the controller does next. -/
inductive Work where
  | look (dto : Option Bool)
  | load (dto : Option Bool) (wasEnabled : Bool)
  | write (dto : Option Bool) (wasEnabled existing : Bool)
  | loadRemoval
  | writeRemoval
  | stop (removing : Bool)
  | tear (removing : Bool) (orders : List Order)
  | clean
  | erase
  deriving DecidableEq

structure Request where
  token : ℕ
  cameraId : Text
  work : Work
  deriving DecidableEq

/-- What a map of the service holds for a camera and a mode: the time of a result, or the call that
is under way. -/
structure Entry where
  cameraId : Text
  mode : LiveViewMode
  value : ℕ
  deriving DecidableEq

structure System where
  cameras : List Camera
  /-- The paths that the media server has. -/
  paths : List Text
  pathEnsureCache : List Entry
  pathEnsureInFlight : List Entry
  preparations : List Preparation
  requests : List Request
  next : ℕ
  deriving DecidableEq

def System.empty : System := ⟨[], [], [], [], [], [], 0⟩

/-- The row, if the camera was not deleted. -/
def System.row (s : System) (cameraId : Text) : Option Camera :=
  (lookup Camera.id s.cameras cameraId).filter fun camera => camera.status ≠ .deleted

def System.isEnabled (s : System) (cameraId : Text) : Bool :=
  (s.row cameraId).any fun camera => camera.status = .enabled

def pathEnsureTtlMs : ℕ := 30000

def Entry.isFor (entry : Entry) (cameraId : Text) (mode : LiveViewMode) : Bool :=
  entry.cameraId = cameraId && entry.mode = mode

/-- The result that answers without a preparation. -/
def System.cached (s : System) (cameraId : Text) (mode : LiveViewMode) (now : ℕ) : Option Entry :=
  (s.pathEnsureCache.find? fun entry => entry.isFor cameraId mode).filter fun entry =>
    now < entry.value + pathEnsureTtlMs

def invalidateMainCodecCache (s : System) (cameraId : Text) : System :=
  { s with
    pathEnsureCache := s.pathEnsureCache.filter fun entry => entry.cameraId ≠ cameraId
    pathEnsureInFlight := s.pathEnsureInFlight.filter fun entry => entry.cameraId ≠ cameraId }

/-- A delete that fails is let go. -/
def obey (s : System) (cameraId : Text) (order : Order) (ok : Bool) : System :=
  match order with
  | .forget mode =>
    { s with
      pathEnsureCache := s.pathEnsureCache.filter fun entry => !entry.isFor cameraId mode }
  | .delete pathName => if ok then { s with paths := s.paths.filter (· ≠ pathName) } else s
  | .invalidate => invalidateMainCodecCache s cameraId

/-! Preparations. -/

def ensurePathForCamera (s : System) (cameraId : Text) (mode : LiveViewMode) (now : ℕ) : System :=
  if (s.cached cameraId mode now).isSome ||
      s.pathEnsureInFlight.any fun entry => entry.isFor cameraId mode then s
  else { s with
    pathEnsureInFlight := ⟨cameraId, mode, s.next⟩ :: s.pathEnsureInFlight
    preparations := s.preparations ++ [⟨s.next, cameraId, mode, .reading⟩]
    next := s.next + 1 }

def moveTo (s : System) (index : ℕ) (preparation : Preparation) (phase : Phase) : System :=
  { s with preparations := s.preparations.set index { preparation with phase := phase } }

/-- The preparation is over, and is under way no more unless it was forgotten meanwhile. -/
def finishPreparation (s : System) (index : ℕ) (preparation : Preparation) : System :=
  { s with
    preparations := s.preparations.eraseIdx index
    pathEnsureInFlight := s.pathEnsureInFlight.filter fun entry =>
      !(entry.isFor preparation.cameraId preparation.mode && entry.value = preparation.token) }

def addPath (s : System) (pathName : Text) : System :=
  { s with paths := pathName :: s.paths.filter (· ≠ pathName) }

def remember (s : System) (cameraId : Text) (mode : LiveViewMode) (now : ℕ) : System :=
  { s with
    pathEnsureCache := ⟨cameraId, mode, now⟩ ::
      s.pathEnsureCache.filter fun entry => !entry.isFor cameraId mode }

/-- How an await of a preparation ends. -/
inductive Reply where
  /-- The call fails, and the preparation with it. -/
  | thrown
  /-- There is nothing to do about what was found. -/
  | settled
  | done
  deriving DecidableEq

/-- One await of a preparation. -/
def prepare (s : System) (index : ℕ) (preparation : Preparation) (reply : Reply) (now : ℕ) :
    System :=
  let pathName := pathNameFromCameraId preparation.cameraId preparation.mode
  match preparation.phase, reply with
  | .refused [], _ => finishPreparation s index preparation
  | .refused (order :: orders), reply =>
    moveTo (obey s preparation.cameraId order (reply ≠ .thrown)) index preparation (.refused orders)
  | .lookingSource, .thrown => moveTo s index preparation .deletingSource
  | .deletingSource, .thrown => moveTo s index preparation .addingSource
  | .deleting, .thrown => moveTo s index preparation .adding
  -- Also where a path was added and the answer got lost.
  | _, .thrown => finishPreparation s index preparation
  | .reading, _ =>
    match s.row preparation.cameraId with
    | none => finishPreparation s index preparation
    | some camera =>
      if camera.status = .disabled then
        moveTo s index preparation (.refused (teardownPathsForCamera preparation.cameraId))
      else moveTo s index preparation .resolving
  | .resolving, .settled => moveTo s index preparation .looking
  | .resolving, .done => moveTo s index preparation .lookingSource
  | .lookingSource, .settled => moveTo s index preparation .looking
  | .lookingSource, .done => moveTo s index preparation .deletingSource
  | .deletingSource, _ =>
    moveTo { s with paths := s.paths.filter (· ≠ privateSourcePathName pathName) } index
      preparation .addingSource
  | .addingSource, _ =>
    moveTo (addPath s (privateSourcePathName pathName)) index preparation .looking
  | .looking, .settled => moveTo s index preparation .settling
  | .looking, .done => moveTo s index preparation .deleting
  | .deleting, _ =>
    moveTo { s with paths := s.paths.filter (· ≠ pathName) } index preparation .adding
  | .adding, _ => moveTo (addPath s pathName) index preparation .settling
  | .settling, _ =>
    finishPreparation (remember s preparation.cameraId preparation.mode now) index preparation

/-! Requests. -/

def Camera.turn (token now : ℕ) (enabled : Bool) (camera : Camera) : Camera :=
  if enabled then { camera with status := .enabled }
  else if camera.status = .enabled then
    { camera with status := .disabled, disabledBy := token, since := now }
  else camera

def Camera.erased (camera : Camera) : Camera := { camera with status := .deleted }

def writeEnabled (s : System) (request : Request) (enabled : Bool) : System :=
  { s with
    cameras := updateAt Camera.id s.cameras request.cameraId
      (Camera.turn request.token s.next enabled) }

def goOn (s : System) (index : ℕ) (request : Request) (work : Work) : System :=
  { s with requests := s.requests.set index { request with work := work } }

def finishRequest (s : System) (index : ℕ) : System :=
  { s with requests := s.requests.eraseIdx index }

/-- One await of a request. -/
def perform (s : System) (index : ℕ) (request : Request) (ok : Bool) : System :=
  let here := ok && (s.row request.cameraId).isSome
  match request.work with
  | .look dto =>
    if here then goOn s index request (.load dto (s.isEnabled request.cameraId))
    else finishRequest s index
  | .load dto wasEnabled =>
    if here then goOn s index request (.write dto wasEnabled (s.isEnabled request.cameraId))
    else finishRequest s index
  | .write dto wasEnabled existing =>
    if here then
      let t := writeEnabled s request (dto.getD existing)
      if dto = some false ∧ wasEnabled then goOn t index request (.stop false)
      else finishRequest t index
    else finishRequest s index
  | .loadRemoval => goOn s index request (if here then .writeRemoval else .stop true)
  | .writeRemoval =>
    goOn (if here then writeEnabled s request false else s) index request (.stop true)
  | .stop removing =>
    goOn s index request (.tear removing (teardownPathsForCamera request.cameraId))
  | .tear removing (order :: orders) =>
    goOn (obey s request.cameraId order ok) index request (.tear removing orders)
  | .tear removing [] =>
    if removing then goOn s index request .clean else finishRequest s index
  | .clean => if ok then goOn s index request .erase else finishRequest s index
  | .erase =>
    if here then
      finishRequest
        { s with cameras := updateAt Camera.id s.cameras request.cameraId Camera.erased } index
    else finishRequest s index

/-! The runs. -/

inductive Step where
  | createCamera (id : Text)
  | update (id : Text) (enabled : Option Bool)
  | remove (id : Text)
  | perform (index : ℕ) (ok : Bool)
  /-- Also for the paths that are warmed up or recovered. -/
  | ensurePathForCamera (id : Text) (mode : LiveViewMode) (now : ℕ)
  | prepare (index : ℕ) (reply : Reply) (now : ℕ)
  | invalidateMainCodecCache (id : Text)
  /-- The media server is found without paths. -/
  | reconcileMissingPaths
  /-- The watchdog takes a path away, or the media server loses it. -/
  | losePath (pathName : Text)

def openRequest (s : System) (id : Text) (work : Work) : System :=
  { s with requests := s.requests ++ [⟨s.next, id, work⟩], next := s.next + 1 }

/-- No two cameras have ids that differ in signs only. -/
def isNewId (s : System) (id : Text) : Bool :=
  s.cameras.all fun camera => camera.id.filter isAlphanumeric ≠ id.filter isAlphanumeric

def step (s : System) : Step → Option System
  | .createCamera id =>
    if isNewId s id then
      some { s with
        cameras := s.cameras ++ [⟨id, .enabled, s.next, s.next⟩]
        next := s.next + 1 }
    else none
  | .update id enabled => some (openRequest s id (.look enabled))
  | .remove id => some (openRequest s id .loadRemoval)
  | .perform index ok =>
    s.requests[index]?.map fun request => perform s index request ok
  | .ensurePathForCamera id mode now => some (ensurePathForCamera s id mode now)
  | .prepare index reply now =>
    s.preparations[index]?.map fun preparation => prepare s index preparation reply now
  | .invalidateMainCodecCache id => some (invalidateMainCodecCache s id)
  | .reconcileMissingPaths => some { s with pathEnsureCache := [] }
  | .losePath pathName => some { s with paths := s.paths.filter (· ≠ pathName) }

end DracVms.PathTeardown
