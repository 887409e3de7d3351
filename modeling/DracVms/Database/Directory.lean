import DracVms.Database.Schema
import DracVms.Library.KeyedList

namespace DracVms.Database

open Json (Text)

inductive UserRole where
  | superAdmin
  | admin
  | operator
  | viewer
  deriving DecidableEq, Repr

inductive CameraPermissionLevel where
  | view
  | control
  | record
  | admin
  deriving DecidableEq, Repr

inductive GroupAccessStatus where
  | active
  | restricted
  | suspended
  deriving DecidableEq, Repr

inductive CameraStatus where
  | unknown
  | online
  | offline
  | error
  deriving DecidableEq, Repr

structure User where
  id : Text
  role : UserRole
  isActive : Bool

structure CameraGroup where
  id : Text
  name : Text
  isActive : Bool
  accessStatus : GroupAccessStatus

/-- A row of `Camera`, with the names of its site and area. -/
structure Camera where
  id : Text
  name : Text
  status : CameraStatus
  lastSeenAt : Option Instant
  recordingEnabled : Bool
  groupId : Option Text
  isPrivate : Bool
  ownerUserId : Option Text
  site : Option Text
  area : Option Text
  createdAt : Instant

structure CameraPermission where
  userId : Text
  cameraId : Option Text
  groupId : Option Text
  level : CameraPermissionLevel

/-- The accounts, the cameras and what connects them. The ids are the primary keys, none empty, and
a permission names a camera that exists. -/
structure Directory where
  users : List User
  cameraGroups : List CameraGroup
  cameras : List Camera
  cameraPermissions : List CameraPermission
  userIds : (users.map User.id).Nodup
  groupIds : (cameraGroups.map CameraGroup.id).Nodup
  cameraIds : (cameras.map Camera.id).Nodup
  named : ∀ camera ∈ cameras, camera.id ≠ []
  permitted : ∀ perm ∈ cameraPermissions, ∀ id, perm.cameraId = some id →
    ∃ camera ∈ cameras, camera.id = id

namespace Directory

def cameraAt (db : Directory) (id : Text) : Option Camera := KeyedList.lookup Camera.id db.cameras id

def groupAt (db : Directory) (id : Text) : Option CameraGroup :=
  KeyedList.lookup CameraGroup.id db.cameraGroups id

theorem cameraAt_some {db : Directory} {id : Text} {camera : Camera}
    (found : db.cameraAt id = some camera) : camera ∈ db.cameras ∧ camera.id = id :=
  KeyedList.lookup_mem found

theorem cameraAt_mem {db : Directory} {camera : Camera} (member : camera ∈ db.cameras) :
    db.cameraAt camera.id = some camera :=
  KeyedList.lookup_eq_some db.cameraIds member

end Directory

/-- `Boolean(id)`: neither null nor the empty text. -/
def truthy (id : Option Text) : Option Text := id.filter fun text => text ≠ []

theorem truthy_some {id : Option Text} {text : Text} (given : truthy id = some text) :
    id = some text :=
  (Option.filter_eq_some_iff.mp given).1

end DracVms.Database
