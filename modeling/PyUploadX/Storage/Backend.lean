import PyUploadX.Storage.Base

/-! What the services rely on of a storage adapter, whichever it is: which objects and
parts it holds, and what each call may change of them. -/
namespace PyUploadX

/-- What can be seen of a backend from outside. -/
structure StoreView (σ : Type) where
  object? : σ → String → ObjectKey → Option Bytes
  hasPart : σ → String → ObjectKey → StorageUploadId → Nat → Prop
  /-- The multipart upload ids handed out so far. -/
  issued : σ → String → Prop
  /-- The key under which an object is written before it gets its own. -/
  scratch? : ObjectKey → Option ObjectKey

namespace StoreView

variable {σ : Type} (view : StoreView σ)

def KeepsObjects (store store' : σ) : Prop := view.object? store' = view.object? store

/-- Only the object of the key, and what lies at its scratch key, may differ. -/
def KeepsOthers (bucket : String) (key : ObjectKey) (store store' : σ) : Prop :=
  ∀ bucket' key', ¬ (bucket' = bucket ∧ (key' = key ∨ view.scratch? key = some key')) →
    view.object? store' bucket' key' = view.object? store bucket' key'

def KeepsIssued (store store' : σ) : Prop := ∀ text, view.issued store text → view.issued store' text

/-- No part appears. -/
def AddsNoPart (store store' : σ) : Prop :=
  ∀ bucket key uploadId number, view.hasPart store' bucket key uploadId number →
    view.hasPart store bucket key uploadId number

/-- Nothing appears but one part. -/
def AddsPart (uploadId : StorageUploadId) (number : Nat) (store store' : σ) : Prop :=
  ∀ bucket key uploadId' number', view.hasPart store' bucket key uploadId' number' →
    view.hasPart store bucket key uploadId' number' ∨ (uploadId' = uploadId ∧ number' = number)

end StoreView

/-- The laws of an adapter. Every call but `upload_part` adds no part, and every call
leaves alone the objects it does not name. -/
structure Backend {σ : Type} (adapter : StorageAdapter σ) extends StoreView σ where
  putObject_effect : ∀ bucket key stream contentType size checksum store,
    let store' := (adapter.putObject bucket key stream contentType size checksum store).2
    toStoreView.KeepsOthers bucket key store store' ∧ toStoreView.KeepsIssued store store' ∧
      toStoreView.AddsNoPart store store'
  deleteObject_effect : ∀ bucket key store,
    let store' := (adapter.deleteObject bucket key store).2
    (∀ bucket' key', ¬ (bucket' = bucket ∧ key' = key) →
      object? store' bucket' key' = object? store bucket' key') ∧
      toStoreView.KeepsIssued store store' ∧ toStoreView.AddsNoPart store store'
  initiate_effect : ∀ bucket key contentType metadata store,
    let store' := (adapter.initiateMultipartUpload bucket key contentType metadata store).2
    toStoreView.KeepsObjects store store' ∧ toStoreView.KeepsIssued store store' ∧
      toStoreView.AddsNoPart store store'
  uploadPart_effect : ∀ bucket key uploadId number stream size checksum store,
    let store' := (adapter.uploadPart bucket key uploadId number stream size checksum store).2
    toStoreView.KeepsObjects store store' ∧ toStoreView.KeepsIssued store store' ∧
      toStoreView.AddsPart uploadId number store store'
  complete_effect : ∀ bucket key uploadId parts store,
    let store' := (adapter.completeMultipartUpload bucket key uploadId parts store).2
    toStoreView.KeepsOthers bucket key store store' ∧ toStoreView.KeepsIssued store store' ∧
      toStoreView.AddsNoPart store store'
  abort_effect : ∀ bucket key uploadId store,
    let store' := (adapter.abortMultipartUpload bucket key uploadId store).2
    toStoreView.KeepsObjects store store' ∧ toStoreView.KeepsIssued store store' ∧
      toStoreView.AddsNoPart store store'
  createBucket_effect : ∀ bucket store,
    let store' := (adapter.createBucket bucket store).2
    toStoreView.KeepsObjects store store' ∧ toStoreView.KeepsIssued store store' ∧
      toStoreView.AddsNoPart store store'
  deleteBucket_effect : ∀ bucket store,
    let store' := (adapter.deleteBucket bucket store).2
    toStoreView.KeepsObjects store store' ∧ toStoreView.KeepsIssued store store' ∧
      toStoreView.AddsNoPart store store'
  objectExists_false : ∀ {bucket key store}, adapter.objectExists bucket key store = .ok false →
    object? store bucket key = none
  putObject_ok : ∀ {bucket key stream contentType size checksum store stored store'},
    adapter.putObject bucket key stream contentType size checksum store = (.ok stored, store') →
      object? store' bucket key = some stream
  deleteObject_error : ∀ {bucket key store failure store'},
    adapter.deleteObject bucket key store = (.error failure, store') →
      toStoreView.KeepsObjects store store'
  initiate_fresh : ∀ {bucket key contentType metadata store text store'},
    adapter.isLocal = false →
    adapter.initiateMultipartUpload bucket key contentType metadata store = (.ok text, store') →
      ¬ issued store text ∧ issued store' text ∧
        ∀ bucket' key' number, ¬ hasPart store' bucket' key' (.issued text) number
  listParts_ok : ∀ {bucket key uploadId store parts},
    adapter.listParts bucket key uploadId store = .ok parts →
      (parts.map (·.partNumber)).Nodup ∧
        ∀ number, number ∈ parts.map (·.partNumber) ↔ hasPart store bucket key uploadId number
  complete_ok : ∀ {bucket key uploadId parts store stored store'},
    adapter.completeMultipartUpload bucket key uploadId parts store = (.ok stored, store') →
      (object? store' bucket key).isSome ∧
        ∀ part ∈ parts, hasPart store bucket key uploadId part.partNumber
  listParts_raises : ∀ {bucket key uploadId store missing},
    adapter.listParts bucket key uploadId store ≠ .error (.api (.missingParts missing))
  complete_raises : ∀ {bucket key uploadId parts store missing},
    (adapter.completeMultipartUpload bucket key uploadId parts store).1 ≠
      .error (.api (.missingParts missing))

end PyUploadX
