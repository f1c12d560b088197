import PyUploadX.Db.Repositories
import PyUploadX.Storage.Base

/-! What the running application holds, and the settings with their overrides. -/
namespace PyUploadX

open Kit

/-- The parts of the application state that the services share; `nfc` stands for
`unicodedata.normalize("NFC", …)` and `sha256` for `hashlib.sha256(…).hexdigest()`. -/
structure AppState (σ : Type) where
  settings : Settings
  storage : StorageAdapter σ
  nfc : String → String
  sha256 : Bytes → String

namespace SettingService

variable {σ : Type} (app : AppState σ)

def getMaxFileSize : Handler σ Int :=
  Program.ask fun db =>
    db.overrides.maximumFileSizeBytes.getD app.settings.uploads.fileSize.maximumBytes

def getDirectThreshold : Handler σ Int :=
  Program.ask fun db =>
    db.overrides.directUploadThresholdBytes.getD app.settings.uploads.directUploadThresholdBytes

def getDefaultMode : Handler σ String :=
  Program.ask fun db =>
    match db.overrides.defaultMode with
    | some mode => if mode = "" then app.settings.uploads.defaultMode else mode
    | none => app.settings.uploads.defaultMode

def getDefaultPartSize : Handler σ Int :=
  Program.ask fun db =>
    db.overrides.defaultPartSizeBytes.getD app.settings.uploads.multipart.defaultPartSizeBytes

def getSessionExpiry : Handler σ Int :=
  Program.ask fun db =>
    db.overrides.sessionExpiresAfterSeconds.getD app.settings.uploads.session.expiresAfterSeconds

def getLifecycleDefault : Handler σ LifecycleDefaultPolicy :=
  Program.ask fun db => db.overrides.lifecycleDefault.getD app.settings.lifecycle.defaultPolicy

end SettingService

end PyUploadX
