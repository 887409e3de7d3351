import DracVms.AccessControl.GroupBlocking
import DracVms.AccessControl.OwnerTransfer
import DracVms.Alarms.BulkAction
import DracVms.Alarms.LifecycleSafety
import DracVms.Alarms.NotificationCooldown
import DracVms.Auth.LoginLockout
import DracVms.Auth.ResetTokens
import DracVms.Auth.SessionRotation
import DracVms.CameraStream.PathTeardownSafety
import DracVms.CameraStream.PublisherSafety
import DracVms.CameraStream.SourceGatewayCap
import DracVms.CameraStream.SourceGatewayCircuit
import DracVms.Cameras.ArmedCameras
import DracVms.Cameras.IntelbrasDecoding
import DracVms.Cameras.ReportsConfinement
import DracVms.Cameras.RtmpIngestReach
import DracVms.Cameras.RtspSecrecy
import DracVms.Central.DatastoreSafety
import DracVms.Central.FleetAlertsSafety
import DracVms.Central.PerfilDeVpnSafety
import DracVms.Central.RemoteOperationsSafety
import DracVms.Central.SeriesRetention
import DracVms.CloudConnector.ClockRollback
import DracVms.CloudConnector.ConfigAcknowledgement
import DracVms.CloudStorage.ListedKeys
import DracVms.CloudStorage.StoragePurgeSafety
import DracVms.CloudStorage.StorageResolverSafety
import DracVms.CloudStorage.UploadConfirmation
import DracVms.CloudStorage.UploadPending
import DracVms.Common.SecretUrlChannel
import DracVms.Detectors.CachedObjects
import DracVms.Detectors.EventGrouping
import DracVms.Detectors.ObjectConfirmation
import DracVms.Investigations.CaseTrailSafety
import DracVms.Jobs.AlarmNotificationProcessor
import DracVms.Notifications.PushDevices
import DracVms.Playback.CursorPagination
import DracVms.Playback.RecordingSelection
import DracVms.Playback.WindowFetch
import DracVms.Recordings.BatchExpirySafety
import DracVms.Recordings.BlindFailsafeSafety
import DracVms.Recordings.ConcatManifest
import DracVms.Recordings.DiskGuard
import DracVms.Recordings.DiskUsageSafety
import DracVms.Recordings.FileDeletionSafety
import DracVms.Recordings.LimpezaDoHistorico
import DracVms.Recordings.PreRollSafety
import DracVms.Recordings.RangeExportAccounts
import DracVms.Recordings.RecorderDesired
import DracVms.Recordings.RestartBudget
import DracVms.Recordings.RetentionCover
import DracVms.Recordings.RetentionCycleSafety
import DracVms.Recordings.RotationFairness
import DracVms.Recordings.SegmentQuarantine
import DracVms.Recordings.ThumbnailSlots
import DracVms.Recordings.VodPlan
import DracVms.Recordings.WriteProgress
import DracVms.Scheduler.ArrivalOrder
import DracVms.Trackers.AjustCamSafety
