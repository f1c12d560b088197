import PyUploadX.Api.DirectoryUploads
import PyUploadX.Api.RangedDownloads
import PyUploadX.Api.Reads
import PyUploadX.Config.Loader
import PyUploadX.Config.Precedence
import PyUploadX.Config.Settings
import PyUploadX.Core.Auth
import PyUploadX.Core.Decimal
import PyUploadX.Core.Errors
import PyUploadX.Core.Idempotency
import PyUploadX.Core.Json
import PyUploadX.Core.JsonDumps
import PyUploadX.Core.JsonText
import PyUploadX.Core.RangeGrammar
import PyUploadX.Core.Ranges
import PyUploadX.Db.FileListing
import PyUploadX.Db.Integrity
import PyUploadX.Db.Models
import PyUploadX.Db.Repositories
import PyUploadX.DirectoryUpload.FixedPaths
import PyUploadX.DirectoryUpload.JsonLines
import PyUploadX.DirectoryUpload.Manifest
import PyUploadX.DirectoryUpload.ManifestHash
import PyUploadX.DirectoryUpload.ManifestLines
import PyUploadX.DirectoryUpload.Paths
import PyUploadX.DirectoryUpload.StateMachine
import PyUploadX.Kit.AtomicFile
import PyUploadX.Kit.Dict
import PyUploadX.Kit.Ensures
import PyUploadX.Kit.FileTree
import PyUploadX.Kit.Guarded
import PyUploadX.Kit.History
import PyUploadX.Kit.Holdings
import PyUploadX.Kit.Ledgers
import PyUploadX.Kit.LinkTree
import PyUploadX.Kit.Machine
import PyUploadX.Kit.Mirror
import PyUploadX.Kit.OrderBy
import PyUploadX.Kit.Paging
import PyUploadX.Kit.Patches
import PyUploadX.Kit.Pool
import PyUploadX.Kit.Program
import PyUploadX.Kit.Protocol
import PyUploadX.Kit.Queue
import PyUploadX.Kit.Runs
import PyUploadX.Kit.Serial
import PyUploadX.Kit.Settling
import PyUploadX.Kit.SharedFile
import PyUploadX.Kit.Stream
import PyUploadX.Kit.Tables
import PyUploadX.Kit.Task
import PyUploadX.Kit.TreeRemoval
import PyUploadX.Kit.TwoRuns
import PyUploadX.Kit.Utf8
import PyUploadX.Kit.Wildcards
import PyUploadX.Kit.Writes
import PyUploadX.Lifecycle.Extension
import PyUploadX.Lifecycle.FullTerm
import PyUploadX.Lifecycle.LegalHold
import PyUploadX.Lifecycle.Policy
import PyUploadX.Lifecycle.Renewal
import PyUploadX.Lifecycle.Retention
import PyUploadX.Lifecycle.Schedule
import PyUploadX.Lifecycle.SlidingTerm
import PyUploadX.Lifecycle.StateMachine
import PyUploadX.Portal.BucketTree
import PyUploadX.Portal.FileUpload
import PyUploadX.Portal.FolderNodes
import PyUploadX.Portal.FolderTree
import PyUploadX.Portal.MixedParts
import PyUploadX.Sdk.Addresses
import PyUploadX.Sdk.DefaultRules
import PyUploadX.Sdk.Directory
import PyUploadX.Sdk.Download
import PyUploadX.Sdk.EntryKeys
import PyUploadX.Sdk.EntryPages
import PyUploadX.Sdk.Fingerprint
import PyUploadX.Sdk.Ignore
import PyUploadX.Sdk.LargeFile
import PyUploadX.Sdk.Listed
import PyUploadX.Sdk.Manifest
import PyUploadX.Sdk.Multipart
import PyUploadX.Sdk.Paths
import PyUploadX.Sdk.Patterns
import PyUploadX.Sdk.Readings
import PyUploadX.Sdk.Retry
import PyUploadX.Sdk.RoundTrip
import PyUploadX.Sdk.Scheduler
import PyUploadX.Sdk.StateFiles
import PyUploadX.Sdk.Strategy
import PyUploadX.Sdk.SymbolicLinks
import PyUploadX.Sdk.Termination
import PyUploadX.Sdk.UploadDirectory
import PyUploadX.Sdk.Workers
import PyUploadX.Services.Bucket
import PyUploadX.Services.Calls
import PyUploadX.Services.Cleanup
import PyUploadX.Services.Common
import PyUploadX.Services.Completion
import PyUploadX.Services.DefaultPolicy
import PyUploadX.Services.DirectoryEffects
import PyUploadX.Services.DirectoryOutcomes
import PyUploadX.Services.DirectoryUpload
import PyUploadX.Services.FailedUpload
import PyUploadX.Services.File
import PyUploadX.Services.Lifecycle
import PyUploadX.Services.ListedParts
import PyUploadX.Services.Outcomes
import PyUploadX.Services.PartLayout
import PyUploadX.Services.PartLedger
import PyUploadX.Services.PartUpserts
import PyUploadX.Services.ReadOutcomes
import PyUploadX.Services.Reconcile
import PyUploadX.Services.Resume
import PyUploadX.Services.ReusedKey
import PyUploadX.Services.Setting
import PyUploadX.Services.SettingUpdate
import PyUploadX.Services.Statements
import PyUploadX.Services.StepwisePart
import PyUploadX.Services.Upload
import PyUploadX.Services.WholeUpload
import PyUploadX.Storage.Backend
import PyUploadX.Storage.Base
import PyUploadX.Storage.BucketRemoval
import PyUploadX.Storage.Buckets
import PyUploadX.Storage.Factory
import PyUploadX.Storage.Local
import PyUploadX.Storage.LocalBackend
import PyUploadX.Storage.LocalKeys
import PyUploadX.Storage.LocalPut
import PyUploadX.Storage.MemoryS3
import PyUploadX.Storage.PartBytes
import PyUploadX.Storage.PartPages
import PyUploadX.Storage.Reading
import PyUploadX.Storage.S3
import PyUploadX.Storage.S3Backend
import PyUploadX.Storage.S3Uploads
import PyUploadX.Storage.SafeJoin
import PyUploadX.System
import PyUploadX.System.ActiveFiles
import PyUploadX.System.AnnouncedDigests
import PyUploadX.System.ApiKeys
import PyUploadX.System.BatchRace
import PyUploadX.System.BucketDeletion
import PyUploadX.System.BucketRecords
import PyUploadX.System.BucketUse
import PyUploadX.System.BucketWrites
import PyUploadX.System.Change
import PyUploadX.System.CompletedJobs
import PyUploadX.System.DefaultBucket
import PyUploadX.System.FailedMultipart
import PyUploadX.System.FileEffects
import PyUploadX.System.FilePages
import PyUploadX.System.FilePrefix
import PyUploadX.System.Interchange
import PyUploadX.System.JobGuards
import PyUploadX.System.JobLimits
import PyUploadX.System.JobProgress
import PyUploadX.System.LifecycleRace
import PyUploadX.System.ManifestRace
import PyUploadX.System.OverriddenSettings
import PyUploadX.System.PartRace
import PyUploadX.System.PermanentLinks
import PyUploadX.System.RepeatedBatch
import PyUploadX.System.ServedManifest
import PyUploadX.System.SessionLock
import PyUploadX.System.SessionRace
import PyUploadX.System.SessionTerms
import PyUploadX.System.Staging
import PyUploadX.System.StatusEdges
import PyUploadX.System.StoreEffect
import PyUploadX.System.TenantReads
import PyUploadX.System.TenantRows
import PyUploadX.System.UploadPaths
import PyUploadX.Worker.Draining
import PyUploadX.Worker.Lifecycle
import PyUploadX.Worker.Outcomes
import PyUploadX.Worker.Progress
import PyUploadX.Worker.Retries
import PyUploadX.Worker.Webhooks
