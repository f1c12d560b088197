import PyUploadX.Db.Repositories
import PyUploadX.Kit.OrderBy
import PyUploadX.Kit.Wildcards

/-! `list_files`: its conditions and its `ORDER BY`. -/
namespace PyUploadX

open Kit Kit.OrderBy

/-- What the columns of texts depend on: how the database compares two texts, whether it takes a
`NULL` to be below or above them, and the escape of a `LIKE` that names none. -/
structure Collation where
  compare : String → String → Ordering
  trans : Std.TransCmp compare
  nullsLow : Bool
  escape : Option Char

instance (collation : Collation) : Std.TransCmp collation.compare := collation.trans

namespace FileStatus

def value : FileStatus → String
  | active => "active"
  | deleted => "deleted"

end FileStatus

namespace FileRepository

inductive SortColumn
  | objectKey
  | bucket
  | sizeBytes
  | contentType
  | status
  | expiresAt
  | createdAt
  deriving DecidableEq

inductive SortDirection
  | asc
  | desc
  deriving DecidableEq

/-- `SORTABLE_COLUMNS`. -/
def sortableColumns : String → Option SortColumn
  | "object_key" => some .objectKey
  | "bucket" => some .bucket
  | "size_bytes" => some .sizeBytes
  | "content_type" => some .contentType
  | "status" => some .status
  | "expires_at" => some .expiresAt
  | "created_at" => some .createdAt
  | _ => none

/-- `DEFAULT_SORT_ORDER`. -/
def defaultSortOrder (field : String) : SortDirection :=
  if field = "created_at" then .desc else .asc

def nullsLastSortFields : List String := ["expires_at"]

def normalizeSortField (orderBy : String) : String :=
  if orderBy = "name" then "object_key" else orderBy

/-- The column, ascending; `nullsLow` says where its missing values are. -/
def SortColumn.compare (collation : Collation) (nullsLow : Bool) :
    SortColumn → FileObject → FileObject → Ordering
  | .objectKey => along (·.objectKey.text) collation.compare
  | .bucket => along (·.bucket) collation.compare
  | .sizeBytes => along (·.sizeBytes) Ord.compare
  | .contentType => along (·.contentType) (withNulls nullsLow collation.compare)
  | .status => along (·.status.value) collation.compare
  | .expiresAt => along (·.expiresAt) (withNulls nullsLow Ord.compare)
  | .createdAt => along (·.createdAt) Ord.compare

/-- `column.asc()` or `column.desc()`, with `nulls_last()` where it is asked for. -/
def SortColumn.term (collation : Collation) (column : SortColumn) (direction : SortDirection)
    (nullsLast : Bool) : FileObject → FileObject → Ordering :=
  match direction with
  | .asc => column.compare collation (if nullsLast then false else collation.nullsLow)
  | .desc => descending (column.compare collation (if nullsLast then true else collation.nullsLow))

/-- The arguments of `list_files` besides the tenant. -/
structure ListFiles where
  bucket : Option String := none
  keyPrefix : Option String := none
  status : Option FileStatus := none
  limit : Nat := 50
  offset : Nat := 0
  orderBy : String := "name"
  order : Option String := none

/-- A character of a `LIKE` pattern. -/
def likeToken : Char → Token Char
  | '%' => .many
  | '_' => .one
  | char => .exactly char

/-- `startswith(prefix)`, which is `LIKE prefix || '%'`. -/
def startsWith (collation : Collation) (keyPrefix text : String) : Bool :=
  Token.accepts (Token.read likeToken collation.escape (keyPrefix.toList ++ ['%'])) text.toList

namespace ListFiles

variable (request : ListFiles)

/-- The conditions besides the tenant's. -/
def keeps (collation : Collation) (file : FileObject) : Bool :=
  request.bucket.all (file.bucket = ·) &&
    (request.keyPrefix.all fun keyPrefix =>
      keyPrefix = "" || startsWith collation keyPrefix file.objectKey.text) &&
    request.status.all (file.status = ·)

def field : String := normalizeSortField request.orderBy

def column : SortColumn := (sortableColumns request.field).getD .objectKey

def direction : SortDirection :=
  match request.order with
  | some "asc" => .asc
  | some "desc" => .desc
  | _ => defaultSortOrder request.field

/-- `ordering`. -/
def ordering (collation : Collation) : List (FileObject → FileObject → Ordering) :=
  [request.column.term collation request.direction (request.field ∈ nullsLastSortFields)] ++
    (if request.field ≠ "object_key" then [SortColumn.objectKey.term collation .asc false] else []) ++
    [along (·.id) Ord.compare]

def query (collation : Collation) : FileQuery where
  keeps := request.keeps collation
  before first second := (byTerms (request.ordering collation) first second).isLE
  limit := request.limit
  offset := request.offset

/-- `GET /v1/files` lists active files unless it is asked for others. -/
def endpoint : ListFiles := { request with status := request.status <|> some .active }

end ListFiles

end FileRepository

end PyUploadX
