import PyUploadX.Api.Reads
import PyUploadX.Services.Outcomes

/-! The requests that only read change nothing. -/
namespace PyUploadX

open Kit

variable {σ : Type} {app : AppState σ}

theorem get_readOnly (identity : Identity) (fileId : Uuid) :
    (FileService.get identity fileId : Handler σ FileObject).ReadOnly := by
  refine .bind (.select _ _) fun found => ?_
  cases found with
  | none => exact .fail _
  | some file => exact .bind (.refuseIf _ _) fun _ => .pure _

theorem downloadForLink_readOnly (fileId : Uuid) (rangeHeader : Option String) :
    (FileService.downloadForLink app fileId rangeHeader).ReadOnly := by
  refine .bind (.select _ _) fun found => ?_
  cases found with
  | none => exact .fail _
  | some file =>
    exact .bind (.refuseIf _ _) fun _ => .bind (.liftExcept _) fun _ =>
      .bind (.askStore _ _) fun _ => .pure _

private theorem presignParts_readOnly (identity : Identity) (uploadId : Uuid) (partNumbers : List Int)
    (expiresSeconds : Option Int) :
    (UploadService.presignParts app identity uploadId partNumbers expiresSeconds).ReadOnly := by
  refine .bind (getSession_readOnly _ _) fun upload => .bind (.liftExcept _) fun _ => ?_
  split
  · exact .bind (.refuseIf _ _) fun _ => .liftExcept _
  · exact .fail _

theorem createPermanentLink_readOnly (identity : Identity) (fileId : Uuid) (baseUrl : String) :
    (FileService.createPermanentLink app identity fileId baseUrl).ReadOnly := by
  refine .bind (.refuseIf _ _) fun _ => ?_
  split
  · exact .fail _
  · exact .bind (get_readOnly _ _) fun _ => .pure _

theorem getLifecycle_readOnly (identity : Identity) (fileId : Uuid) :
    (LifecycleService.getLifecycle identity fileId :
      Handler σ LifecycleService.LifecycleView).ReadOnly := by
  refine .bind (.select _ _) fun found => ?_
  cases found with
  | none => exact .fail _
  | some file => exact .pure _

theorem read_readOnly (identity : Identity) (request : ReadRequest) :
    (read app identity request).ReadOnly := by
  cases request with
  | getUpload uploadId => exact .bind (getSession_readOnly _ _) fun _ => .pure _
  | listParts uploadId =>
    exact .bind (.bind (getSession_readOnly _ _) fun _ => .ask _) fun _ => .pure _
  | presignParts uploadId partNumbers expiresSeconds =>
    exact .bind (presignParts_readOnly _ _ _ _) fun _ => .pure _
  | listFiles query => exact .bind (.select _ _) fun _ => .pure _
  | getFile fileId => exact .bind (get_readOnly _ _) fun _ => .pure _
  | download fileId rangeHeader =>
    exact .bind (.bind (get_readOnly _ _) fun _ => .bind (.liftExcept _) fun _ =>
      .bind (.askStore _ _) fun _ => .pure _) fun _ => .pure _
  | createPermanentLink fileId baseUrl =>
    exact .bind (createPermanentLink_readOnly _ _ _) fun _ => .pure _
  | presignDownload fileId expiresSeconds =>
    exact .bind (.bind (get_readOnly _ _) fun _ => .bind (.refuseIf _ _) fun _ =>
      .liftExcept _) fun _ => .pure _
  | getLifecycle fileId => exact .bind (getLifecycle_readOnly _ _) fun _ => .pure _
  | presignGet bucket objectKey expiresSeconds =>
    exact .bind (.liftExcept _) fun _ => .pure _

end PyUploadX
