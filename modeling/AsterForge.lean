import AsterForge.Core.HydrationLeak
import AsterForge.Core.ContentRanges
import AsterForge.Core.EntryAtomicity
import AsterForge.Core.EvictionCoverage
import AsterForge.Core.DirtyFencing
import AsterForge.Core.MutationSafety
import AsterForge.Core.UploadReplay
import AsterForge.Core.UploadPlan
import AsterForge.Core.UploadConvergence
import AsterForge.Linux.DirtyCommits
import AsterForge.Linux.HiddenNames
import AsterForge.Linux.RemoteIndex
import AsterForge.Linux.Rename
import AsterForge.MacosBridge.Enumeration
import AsterForge.Windows.WaiterRegistry
import AsterForge.Linux.InodeIdentity
import AsterForge.Webdav.Paging
import AsterForge.Webdav.TransferMapping
import AsterForge.Webdav.Coalescing
import AsterForge.Webdav.Multipart
import AsterForge.Webdav.TextRetention
import AsterForge.Webdav.RangeReading
import AsterForge.Webdav.MultistatusStream
import AsterForge.Xml.Acceptors
import AsterForge.Xml.WriterSoundness
import AsterForge.Db.Transaction
import AsterForge.Db.RuntimeLease
import AsterForge.Runtime.LeaseSupervisor
import AsterForge.Tasks.LeaseExpiry
import AsterForge.Db.MailFence
import AsterForge.Db.MailAttempts
import AsterForge.Tasks.ExecutionFence
import AsterForge.Tasks.ConsumerConservation
import AsterForge.Core.CapabilityIdentity
import AsterForge.Runtime.Lifecycle
import AsterForge.Cache.Race
import AsterForge.Runtime.FlushScope
import AsterForge.Auth.SingleUse
import AsterForge.Config.HintCoverage
import AsterForge.Windows.ConnectionContract
import AsterForge.Tasks.ScheduleExclusion
import AsterForge.Webdav.MutationResponse
import AsterForge.Webdav.PathLaws
import AsterForge.Webdav.LockEnforcement
import AsterForge.Webdav.PropnameAgreement
import AsterForge.Webdav.ExpandProperty
import AsterForge.Mail.Template
import AsterForge.Utils.Net
import AsterForge.Cache.Bloom
import AsterForge.Events.Rounds
import AsterForge.Db.AuditLog
import AsterForge.Cache.RedisPrefix
import AsterForge.Db.SearchQuery
import AsterForge.Storage.ObjectKey
import AsterForge.Middleware.Cors
import AsterForge.Middleware.Csrf
import AsterForge.Linux.Readdir
import AsterForge.Tasks.Dedupe
import AsterForge.Webdav.Preference
