import DracVms.Database.Directory

namespace DracVms.Database

open Json (Text)

/-- A row of `CameraEvent`. -/
structure CameraEvent where
  id : Text
  cameraId : Text
  type : Text
  severity : Text
  message : Text
  metadata : Option Metadata
  occurredAt : Instant
  createdAt : Instant

inductive AlarmStatus where
  | «open»
  | acked
  | resolved
  deriving DecidableEq, Repr

inductive AlarmPriority where
  | p1
  | p2
  | p3
  | p4
  deriving DecidableEq, Repr

inductive AlarmSource where
  | stream
  | health
  | motion
  | analytics
  | system
  | manual
  deriving DecidableEq, Repr

/-- A row of `AlarmInstance`. -/
structure AlarmInstance where
  id : Text
  cameraId : Option Text
  eventId : Option Text
  source : AlarmSource
  type : Text
  title : Text
  message : Text
  severity : Text
  priority : AlarmPriority
  status : AlarmStatus
  metadata : Option Metadata
  note : Option Text
  occurrenceCount : ℕ
  firstOccurredAt : Instant
  lastOccurredAt : Instant
  acknowledgedAt : Option Instant
  acknowledgedByUserId : Option Text
  acknowledgedByUserName : Option Text
  resolvedAt : Option Instant
  resolvedByUserId : Option Text
  resolvedByUserName : Option Text

/-- A row of `AuditLog`: who did what to which row. -/
structure AuditLog where
  userId : Option Text
  action : Text
  entityType : Text
  entityId : Option Text
  createdAt : Instant

/-- The order of the values in the enumeration, by which the database sorts them. -/
def AlarmStatus.rank : AlarmStatus → ℕ
  | .open => 0
  | .acked => 1
  | .resolved => 2

def AlarmPriority.rank : AlarmPriority → ℕ
  | .p1 => 1
  | .p2 => 2
  | .p3 => 3
  | .p4 => 4

end DracVms.Database
