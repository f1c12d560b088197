import PyUploadX.Core.Ranges
import PyUploadX.Kit.Dict

/-! How the configuration is put together from a YAML file, the environment and the command
line. -/
namespace PyUploadX.Loader

open Kit

/-- What the loader takes from Python: texts as keys, the scalar values, and the readers of texts,
where `none` is a `ValueError`. -/
structure Python (κ α : Type) [DecidableEq κ] where
  key : String → κ
  null : α
  bool : Bool → α
  int : Int → α
  text : String → α
  lower : String → String
  float : String → Option α
  jsonLoads : String → Option (DictValue κ α)
  jsonLoads_unique : ∀ {text value}, jsonLoads text = some value → value.Unique

variable {κ α : Type} [DecidableEq κ] (python : Python κ α)

def coerce (value : String) : DictValue κ α :=
  let stripped := strip value
  if stripped = "" then .scalar (python.text value)
  else
    let lowered := python.lower stripped
    if lowered = "true" ∨ lowered = "false" then .scalar (python.bool (lowered = "true"))
    else if lowered = "null" ∨ lowered = "none" then .scalar python.null
    else
      match python.jsonLoads stripped with
      | some value => value
      | none =>
        match parseInt stripped with
        | some number => .scalar (python.int number)
        | none =>
          match python.float stripped with
          | some number => .scalar number
          | none => .scalar (python.text value)

def splitSeparator : List Char → List Char × List (List Char)
  | [] => ([], [])
  | '_' :: '_' :: rest =>
    match splitSeparator rest with
    | (first, later) => ([], first :: later)
  | char :: rest =>
    match splitSeparator rest with
    | (first, later) => (char :: first, later)

/-- The names a variable's key is made of; there is at least one. -/
def variablePath (key : String) : List κ :=
  let parts := splitSeparator (python.lower (String.ofList (key.toList.drop 7))).toList
  (parts.1 :: parts.2).map fun part => python.key (String.ofList part)

/-- What is no mapping has no `setdefault`, and takes no text as an index. -/
inductive AssignError
  | attributeError
  | typeError
  deriving DecidableEq, Repr

/-- The inner loop of `env_overrides`, and the assignment after it. -/
def assign (cursor : Dict κ α) : List κ → DictValue κ α → Except AssignError (Dict κ α)
  | [], _ => .ok cursor
  | [last], value => .ok (cursor.set last value)
  | part :: next :: rest, value =>
    match cursor.get? part with
    | none => (assign .nil (next :: rest) value).map fun inner => cursor.set part (.mapping inner)
    | some (.mapping inner) =>
      (assign inner (next :: rest) value).map fun inner => cursor.set part (.mapping inner)
    | some (.scalar _) => .error (if rest = [] then .typeError else .attributeError)

/-- `env_overrides`, where the environment is enumerated in the order of the list. -/
def envOverrides (environ : List (String × String)) : Except AssignError (Dict κ α) :=
  environ.foldlM (fun overrides variable_ =>
    if variable_.1.startsWith "UPLOAD_" then
      assign overrides (variablePath python variable_.1) (coerce python variable_.2)
    else .ok overrides) .nil

/-- `if data: raw = _deep_merge(raw, data)`. -/
def mergeGiven (raw data : Dict κ α) : Dict κ α :=
  match data with
  | .nil => raw
  | data => raw.deepMerge data

/-- The mapping that is given to `Settings.model_validate`. -/
def rawSettings (yaml : Mapping κ α) (environ : List (String × String))
    (cliOverrides : Mapping κ α) : Except AssignError (Dict κ α) :=
  (envOverrides python environ).map fun env =>
    mergeGiven (mergeGiven (mergeGiven .nil yaml.entries) env) cliOverrides.entries

/-- `load_settings`. The validation looks at what the mapping holds, not at the order of its
entries. -/
def loadSettings {ρ : Type} (validate : (List κ → Option (Shape α)) → ρ) (yaml : Mapping κ α)
    (environ : List (String × String)) (cliOverrides : Mapping κ α) : Except AssignError ρ :=
  (rawSettings python yaml environ cliOverrides).map fun raw =>
    validate (DictValue.mapping raw).at?

end PyUploadX.Loader
