import DracVms.Cameras.RtmpProfiles
import DracVms.Library.KeyedList
import DracVms.Library.Runs

namespace DracVms.PublishGate

open Json (Text)
open JsString (trim toLowerCase)
open KeyedList (lookup updateAt)
open RtmpIngest

/-- A camera, as far as the ingestion looks at it. -/
structure Camera where
  id : Text
  enabled : Bool
  sourceMode : Text
  rtmpIngestKeyHash : Option Text
  rtmpIngestKeyEncrypted : Option Text
  rtmpIngestPath : Option Text
  deriving DecidableEq

/-- A camera that publishes and is not switched off. -/
def Camera.isLive (camera : Camera) : Bool := camera.enabled && isPushSourced camera.sourceMode

/-- The digest and the cipher of the keys. -/
structure Crypto where
  hashIngestKey : Text → Text
  encrypt : Text → Text
  decrypt : Text → Option Text
  /-- No two keys have the same digest. -/
  distinct : ∀ first second, isValidIngestKey first = true → isValidIngestKey second = true →
    hashIngestKey first = hashIngestKey second → first = second
  opens : ∀ value, decrypt (encrypt value) = some value
  sealed : ∀ value, encrypt value ≠ []

section Gates

variable (crypto : Crypto) (cameras : List Camera)

def findCameraByIngestKey (key : Text) : Option Camera :=
  if isValidIngestKey key then
    (cameras.find? fun camera =>
      camera.rtmpIngestKeyHash = some (crypto.hashIngestKey key)).filter Camera.isLive
  else none

/-- Two cameras at the same path are none. -/
def findCameraByIngestPath (path : Text) : Option Camera :=
  if isAcceptableIngestPath path then
    let paths := ingestProfilePathCandidates (normalizeIngestPath path)
    match (cameras.filter fun camera =>
      camera.rtmpIngestPath.any fun bound => bound ∈ paths).take 2 with
    | [camera] => if camera.isLive then some camera else none
    | _ => none
  else none

/-- The camera that both gates let publish at a path. -/
def publisherOf (path : Text) : Option Camera :=
  match ingestKeyFromPathName path with
  | some key => (findCameraByIngestKey crypto cameras key).or (findCameraByIngestPath cameras path)
  | none => findCameraByIngestPath cameras path

def stripSlashes (text : Text) : Text := (text.dropWhile (· = '/')).rdropWhile (· = '/')

/-- The gate before the media. -/
def recordSrsPublishAttempt (app stream : Text) : Bool :=
  let app := stripSlashes (trim app)
  let stream := stripSlashes (trim stream)
  app ≠ [] && stream ≠ [] && (publisherOf crypto cameras (app ++ '/' :: stream)).isSome

/-- The gate of the media server, for a publisher without its credential. -/
def authorizeMediaMtx (protocol path : Text) : Bool :=
  toLowerCase protocol ∈ ["rtmp".toList, "rtmps".toList] && (publisherOf crypto cameras path).isSome

end Gates

/-! The registrations. -/

/-- A path that is about to be bound: the key in it was looked at, then its profiles. -/
structure Binding where
  cameraId : Text
  path : Text
  familyChecked : Bool

/-- The cameras and the bindings under way. The keys that were ever given out, each with its camera,
are what the table does not tell. -/
structure Registry where
  cameras : List Camera
  bindings : List Binding
  issued : List (Text × Text)

def Registry.empty : Registry := ⟨[], [], []⟩

inductive Step where
  | createPull (id : Text)
  | createPushSourcedCamera (id key : Text)
  | rotateRtmpIngestKey (id key : Text)
  | disableRtmpIngest (id : Text)
  | setEnabled (id : Text) (enabled : Bool)
  /-- The path is looked at, and the owner of the key in it. -/
  | bindRtmpIngestPath (id path : Text)
  /-- The cameras at the profiles of the path are read. -/
  | checkFamily (index : ℕ)
  /-- The camera is written. -/
  | writePath (index : ℕ)

section Steps

variable (crypto : Crypto)

/-- The digest is unique in the table. -/
def hashTaken (cameras : List Camera) (id key : Text) : Bool :=
  cameras.any fun camera =>
    camera.id ≠ id && camera.rtmpIngestKeyHash = some (crypto.hashIngestKey key)

def keyed (key : Text) (camera : Camera) : Camera :=
  { camera with
    sourceMode := sourceModePush
    rtmpIngestKeyHash := some (crypto.hashIngestKey key)
    rtmpIngestKeyEncrypted := some (crypto.encrypt key) }

def unkeyed (camera : Camera) : Camera :=
  { camera with
    sourceMode := sourceModePull
    rtmpIngestKeyHash := none
    rtmpIngestKeyEncrypted := none
    rtmpIngestPath := none }

def boundTo (path : Text) (camera : Camera) : Camera :=
  { camera with sourceMode := sourceModePush, rtmpIngestPath := some path }

def newCamera (id : Text) : Camera := ⟨id, true, sourceModePull, none, none, none⟩

/-- Another camera has the key that the path carries. -/
def keyElsewhere (cameras : List Camera) (id path : Text) : Bool :=
  (ingestKeyFromPathName path).any fun key =>
    (cameras.find? fun camera =>
      camera.rtmpIngestKeyHash = some (crypto.hashIngestKey key)).any fun owner => owner.id ≠ id

/-- Another camera is bound to a profile of the path. -/
def familyElsewhere (cameras : List Camera) (id path : Text) : Bool :=
  ((cameras.filter fun camera => camera.rtmpIngestPath.any fun bound =>
    bound ∈ ingestProfilePathCandidates path).take 2).any fun dono => dono.id ≠ id

/-- The path is unique in the table. -/
def pathTaken (cameras : List Camera) (id path : Text) : Bool :=
  cameras.any fun camera => camera.id ≠ id && camera.rtmpIngestPath = some path

def knows (cameras : List Camera) (id : Text) : Bool := cameras.any fun camera => camera.id = id

/-- A request that is refused changes nothing. -/
def step (s : Registry) : Step → Option Registry
  | .createPull id =>
    if knows s.cameras id then none
    else some { s with cameras := s.cameras ++ [newCamera id] }
  | .createPushSourcedCamera id key =>
    if knows s.cameras id || !isValidIngestKey key then none
    else if hashTaken crypto s.cameras id key then some s
    else some { s with
      cameras := s.cameras ++ [keyed crypto key (newCamera id)]
      issued := (id, key) :: s.issued }
  | .rotateRtmpIngestKey id key =>
    if !isValidIngestKey key then none
    else if !knows s.cameras id || hashTaken crypto s.cameras id key then some s
    else some { s with
      cameras := updateAt Camera.id s.cameras id (keyed crypto key)
      issued := (id, key) :: s.issued }
  | .disableRtmpIngest id => some { s with cameras := updateAt Camera.id s.cameras id unkeyed }
  | .setEnabled id enabled =>
    some { s with
      cameras := updateAt Camera.id s.cameras id fun camera => { camera with enabled := enabled } }
  | .bindRtmpIngestPath id path =>
    let normalizado := normalizeIngestPath path
    if !isAcceptableIngestPath path || keyElsewhere crypto s.cameras id normalizado then some s
    else some { s with bindings := s.bindings ++ [⟨id, normalizado, false⟩] }
  | .checkFamily index =>
    s.bindings[index]?.map fun binding =>
      if familyElsewhere s.cameras binding.cameraId binding.path then
        { s with bindings := s.bindings.eraseIdx index }
      else { s with bindings := s.bindings.set index { binding with familyChecked := true } }
  | .writePath index =>
    s.bindings[index]?.bind fun binding =>
      if binding.familyChecked then
        some {
          cameras := if pathTaken s.cameras binding.cameraId binding.path then s.cameras
            else updateAt Camera.id s.cameras binding.cameraId (boundTo binding.path)
          bindings := s.bindings.eraseIdx index
          issued := s.issued }
      else none

end Steps

end DracVms.PublishGate
