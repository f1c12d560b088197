import PyUploadX.Core.Errors

/-! The configuration the services read, with the source's defaults. -/
namespace PyUploadX

inductive StorageBackend
  | local
  | s3
  deriving DecidableEq, Repr

/-- `session.bind.dialect.name`. -/
inductive Dialect
  | postgresql
  | other
  deriving DecidableEq, Repr

/-- What the service sees of the database its `url` names. -/
structure DatabaseConfig where
  dialect : Dialect := .postgresql

structure StorageConfig where
  backend : StorageBackend := .s3
  defaultBucket : String := "app-default"
  allowedBuckets : List String := ["app-default", "public-assets"]

structure MultipartConfig where
  enabled : Bool := true
  defaultPartSizeBytes : Int := 8 * 1024 * 1024
  minimumPartSizeBytes : Nat := 5 * 1024 * 1024
  maximumPartSizeBytes : Nat := 512 * 1024 * 1024
  maximumParts : Nat := 10000
  maximumPresignBatchSize : Nat := 100

structure SessionConfig where
  expiresAfterSeconds : Int := 86400
  maximumLifetimeSeconds : Int := 604800
  refreshEnabled : Bool := true

structure FileSizeConfig where
  maximumBytes : Int := 5 * 1024 * 1024 * 1024

structure UploadsConfig where
  defaultMode : String := "automatic"
  directUploadThresholdBytes : Int := 20 * 1024 * 1024
  objectConflictPolicy : String := "reject"
  multipart : MultipartConfig := {}
  session : SessionConfig := {}
  fileSize : FileSizeConfig := {}

structure PresignConfig where
  defaultExpiresSeconds : Int := 900
  maximumExpiresSeconds : Int := 86400
  uploadPartExpiresSeconds : Int := 3600

structure PermanentLinkConfig where
  enabled : Bool := true
  secret : Option String := none

structure DirectoryUploadLimits where
  maximumFilesPerJob : Nat := 1000000
  maximumDirectoriesPerJob : Nat := 100000
  maximumTotalBytes : Nat := 1099511627776
  maximumPathDepth : Nat := 64
  maximumRelativePathBytes : Nat := 1024
  maximumEntriesPerManifestRequest : Nat := 1000

structure DirectoryConflictsConfig where
  defaultPolicy : String := "reject"
  allowedPolicies : List String := ["reject", "skip", "overwrite", "rename", "compare"]

structure DirectoryUploadConfig where
  enabled : Bool := true
  limits : DirectoryUploadLimits := {}
  conflicts : DirectoryConflictsConfig := {}

/-- A default policy as `model_dump()` or the stored override gives it. -/
structure LifecycleDefaultPolicy where
  mode : String := "ttl"
  ttlSeconds : Option Int := some 2592000
  action : String := "delete"

structure LifecyclePolicyRules where
  allowClientOverride : Bool := true
  permanentAllowed : Bool := true
  minimumTtlSeconds : Int := 3600
  maximumTtlSeconds : Int := 31536000
  allowedModes : List String := ["temporary", "ttl", "expires_at", "permanent", "sliding_ttl"]
  allowedActions : List String := ["delete", "notify", "none"]

structure LifecycleConfig where
  enabled : Bool := true
  defaultPolicy : LifecycleDefaultPolicy := {}
  policy : LifecyclePolicyRules := {}

structure Settings where
  database : DatabaseConfig := {}
  storage : StorageConfig := {}
  uploads : UploadsConfig := {}
  presign : PresignConfig := {}
  permanentLink : PermanentLinkConfig := {}
  directoryUpload : DirectoryUploadConfig := {}
  lifecycle : LifecycleConfig := {}

/-- The decoded rows of `app_settings` that override the configuration. -/
structure Overrides where
  defaultBucket : Option String := none
  presignDefaultExpiresSeconds : Option Int := none
  maximumFileSizeBytes : Option Int := none
  directUploadThresholdBytes : Option Int := none
  defaultMode : Option String := none
  defaultPartSizeBytes : Option Int := none
  sessionExpiresAfterSeconds : Option Int := none
  lifecycleDefault : Option LifecycleDefaultPolicy := none

end PyUploadX
