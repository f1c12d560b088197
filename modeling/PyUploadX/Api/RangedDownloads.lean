import PyUploadX.Sdk.Download

/-! Ranged downloads from disk, however the file's reads cut it into chunks. -/
namespace PyUploadX

open Kit

namespace LocalStorageAdapter

end LocalStorageAdapter

section Download

variable {σ : Type} {app : AppState σ} {world : World Database σ} {identity : Identity}
  {fileId : Uuid} {now : Timestamp} {file : FileObject} {content : Bytes} {header : String}

end Download

end PyUploadX
