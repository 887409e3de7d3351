import DracVms.AccessControl.AccessControl
import DracVms.Recordings.Protection

namespace DracVms.RolePermissions

open Json (Text field)
open Database AccessControl
open Protection (camposDe)

inductive PermissionKey where
  | liveView
  | playback
  | ptzControl
  | alarmAck
  | cameraConfig
  | userManage
  | auditLogs
  | exportEvidence
  | serverConfig
  | roleManage
  | reportGenerate
  deriving DecidableEq, Repr

def PermissionKey.text : PermissionKey → Text
  | .liveView => "liveView".toList
  | .playback => "playback".toList
  | .ptzControl => "ptzControl".toList
  | .alarmAck => "alarmAck".toList
  | .cameraConfig => "cameraConfig".toList
  | .userManage => "userManage".toList
  | .auditLogs => "auditLogs".toList
  | .exportEvidence => "exportEvidence".toList
  | .serverConfig => "serverConfig".toList
  | .roleManage => "roleManage".toList
  | .reportGenerate => "reportGenerate".toList

abbrev PermissionMatrix := PermissionKey → Bool

def fromList (granted : List PermissionKey) : PermissionMatrix := fun key => key ∈ granted

def DEFAULT_PERMISSIONS : UserRole → PermissionMatrix
  | .superAdmin => fun _ => true
  | .admin => fun _ => true
  | .operator =>
    fromList [.liveView, .playback, .ptzControl, .alarmAck, .exportEvidence, .reportGenerate]
  | .viewer => fromList [.liveView, .playback]

def isTrue : Metadata → Bool
  | .atom (.bool b) => b
  | _ => false

/-- A key that the stored matrix does not have falls back on the default. -/
def normalizeMatrix (input : Metadata) (fallback : PermissionMatrix) : PermissionMatrix :=
  fun key =>
    match field (camposDe (some input)) key.text with
    | some value => isTrue value
    | none => fallback key

/-- The rows of `RolePermission`, whose key is the role. -/
abbrev StoredMatrices := UserRole → Option Metadata

def getForRole (stored : StoredMatrices) (role : UserRole) : PermissionMatrix :=
  match stored role with
  | some matrix => normalizeMatrix matrix (DEFAULT_PERMISSIONS role)
  | none => DEFAULT_PERMISSIONS role

def hasPermission (stored : StoredMatrices) (role : UserRole) (permission : PermissionKey) : Bool :=
  getForRole stored role permission

def roleWeight : UserRole → ℕ
  | .viewer => 1
  | .operator => 2
  | .admin => 3
  | .superAdmin => 4

/-- The guard of `@Roles`. -/
def rolesAllow (user : AuthUser) (required : UserRole) : Bool :=
  roleWeight required ≤ roleWeight user.role

/-- The guard of `@RequirePermission`, which never stops the highest role. -/
def permissionsAllow (stored : StoredMatrices) (user : AuthUser) (required : PermissionKey) :
    Bool :=
  user.role = .superAdmin || hasPermission stored user.role required

def rolesRefusal : Text := "Forbidden resource".toList

def permissionRefusal (required : PermissionKey) : Text :=
  "Permissão negada: requer \"".toList ++ required.text ++ "\".".toList

end DracVms.RolePermissions
