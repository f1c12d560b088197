import PyUploadX.Core.JsonText
import PyUploadX.Db.Models
import PyUploadX.Kit.Program
import Mathlib.Logic.Function.Basic

/-! API keys: the document that lists them, and whom the headers of a request stand for. -/
namespace PyUploadX

structure ApiKeyAuthenticator where
  keys : String → Option Identity := fun _ => none

/-- The exceptions of `_load`, which end the start of the service. -/
inductive KeysError
  | json
  | type
  deriving DecidableEq

/-- `AuthenticationError`. -/
inductive Unauthenticated
  | required
  deriving DecidableEq

namespace Unauthenticated

def code : Unauthenticated → String
  | required => "AUTHENTICATION_REQUIRED"

def message : Unauthenticated → String
  | required => "Authentication is required."

def statusCode : Unauthenticated → Nat
  | required => 401

end Unauthenticated

/-- `scope.partition("/")`, where a scope without a principal has the default one. -/
def scopeIdentity (scope : String) : Identity where
  tenantId := String.ofList (scope.toList.takeWhile fun char => char ≠ '/')
  principalId :=
    let principal := (scope.toList.dropWhile fun char => char ≠ '/').tail
    if principal = [] then "default" else String.ofList principal

def defaultIdentity : Identity := ⟨"default", "default"⟩

/-- What `for key in keys` gives, where a text counts as a list of one. -/
def scopeKeys : Json → Except KeysError (List Json)
  | .string key => .ok [.string key]
  | .array keys => .ok keys
  | .object fields => .ok (fields.map fun field => .string field.1)
  | _ => .error .type

namespace ApiKeyAuthenticator

/-- `self._keys[key] = identity`. A number or a truth value is a key that no header asks for; a
list or a `dict` is none. -/
def enter (identity : Identity) (authenticator : ApiKeyAuthenticator) :
    List Json → Except KeysError ApiKeyAuthenticator
  | [] => .ok authenticator
  | .string key :: rest =>
    enter identity ⟨Function.update authenticator.keys key (some identity)⟩ rest
  | .array _ :: _ => .error .type
  | .object _ :: _ => .error .type
  | _ :: rest => enter identity authenticator rest

def enterScopes (authenticator : ApiKeyAuthenticator) :
    JsonObject → Except KeysError ApiKeyAuthenticator
  | [] => .ok authenticator
  | (scope, keys) :: rest => do
    let keys ← scopeKeys keys
    let authenticator ← enter (scopeIdentity scope) authenticator keys
    authenticator.enterScopes rest

/-- `_load` of the decoded document. -/
def loadData : Json → Except KeysError ApiKeyAuthenticator
  | .object scopes => enterScopes {} scopes
  | .array keys => enter defaultIdentity {} keys
  | _ => .ok {}

/-- `__init__`, with the value of the environment variable. -/
def load (float : String → FloatValue) (raw : Option String) :
    Except KeysError ApiKeyAuthenticator :=
  if raw.getD "" = "" then .ok {}
  else
    match jsonLoads float (raw.getD "") with
    | none => .error .json
    | some data => loadData data

def authenticate (authenticator : ApiKeyAuthenticator) (apiKey : Option String) :
    Except Unauthenticated Identity :=
  if apiKey.getD "" = "" then .error .required
  else
    match authenticator.keys (apiKey.getD "") with
    | none => .error .required
    | some identity => .ok identity

theorem authenticate_eq_ok {authenticator : ApiKeyAuthenticator} {apiKey : Option String}
    {identity : Identity} (passed : authenticator.authenticate apiKey = .ok identity) :
    authenticator.keys (apiKey.getD "") = some identity := by
  unfold authenticate at passed
  split at passed
  · cases passed
  · split at passed
    · cases passed
    · rename_i found
      cases passed
      exact found

end ApiKeyAuthenticator

/-! What the document says. -/

/-- The texts among the keys of a scope. -/
def keyTexts (keys : List Json) : List String :=
  keys.filterMap fun key =>
    match key with
    | .string text => some text
    | _ => none

/-- Every key of the document with the identity of its scope, in the order of the document. -/
def listedKeys : Json → List (String × Identity)
  | .object scopes => scopes.flatMap fun scope =>
      (keyTexts ((scopeKeys scope.2).toOption.getD [])).map fun key => (key, scopeIdentity scope.1)
  | .array keys => (keyTexts keys).map fun key => (key, defaultIdentity)
  | _ => []

/-- Of a key that is listed twice the last listing counts. -/
def lastListed (before : Option Identity) (listed : List (String × Identity)) (key : String) :
    Option Identity :=
  listed.foldl (fun found entry => if entry.1 = key then some entry.2 else found) before

namespace ApiKeyAuthenticator

private theorem enter_keys {identity : Identity} {keys : List Json}
    {authenticator entered : ApiKeyAuthenticator}
    (done : authenticator.enter identity keys = .ok entered) (key : String) :
    entered.keys key =
      lastListed (authenticator.keys key) ((keyTexts keys).map fun text => (text, identity)) key := by
  induction keys generalizing authenticator with
  | nil =>
    cases done
    rfl
  | cons first rest ih =>
    cases first with
    | string text =>
      have updated : Function.update authenticator.keys text (some identity) key =
          if text = key then some identity else authenticator.keys key := by
        simp only [Function.update_apply, eq_comm]
      rw [ih done]
      dsimp only
      rw [updated]
      rfl
    | array => cases done
    | object => cases done
    | null => exact ih done
    | bool => exact ih done
    | int => exact ih done
    | float => exact ih done

private theorem enterScopes_keys {scopes : JsonObject} {authenticator entered : ApiKeyAuthenticator}
    (done : authenticator.enterScopes scopes = .ok entered) (key : String) :
    entered.keys key = lastListed (authenticator.keys key) (listedKeys (.object scopes)) key := by
  induction scopes generalizing authenticator with
  | nil =>
    cases done
    rfl
  | cons scope rest ih =>
    obtain ⟨keys, iterated, done⟩ := Kit.except_bind_eq_ok.mp done
    obtain ⟨next, first, done⟩ := Kit.except_bind_eq_ok.mp done
    rw [ih done, enter_keys first]
    simp [lastListed, listedKeys, iterated, Except.toOption]

/-- A key stands for the scope that lists it last, and for nobody if none does. -/
theorem loadData_keys {data : Json} {authenticator : ApiKeyAuthenticator}
    (loaded : loadData data = .ok authenticator) (key : String) :
    authenticator.keys key = lastListed none (listedKeys data) key := by
  cases data with
  | object scopes => exact enterScopes_keys loaded key
  | array keys => exact enter_keys loaded key
  | null => cases loaded; rfl
  | bool => cases loaded; rfl
  | int => cases loaded; rfl
  | float => cases loaded; rfl
  | string => cases loaded; rfl

end ApiKeyAuthenticator

theorem lastListed_mem {listed : List (String × Identity)} {key : String} {before : Option Identity}
    {identity : Identity} (found : lastListed before listed key = some identity) :
    before = some identity ∨ (key, identity) ∈ listed := by
  induction listed generalizing before with
  | nil => exact .inl found
  | cons entry rest ih =>
    obtain ⟨text, owner⟩ := entry
    rcases ih found with now | later
    · dsimp only at now
      split at now
      · rename_i same
        cases same
        cases now
        exact .inr List.mem_cons_self
      · exact .inl now
    · exact .inr (List.mem_cons_of_mem _ later)

/-! The headers of a request. -/

inductive AuthMode
  | apiKey
  | none
  deriving DecidableEq

structure AuthConfig where
  mode : AuthMode := .apiKey
  headerName : String := "X-API-Key"

/-- The first header of the name, in whatever case. -/
def header (headers : List (String × String)) (name : String) : Option String :=
  (headers.find? fun entry => entry.1.toLower = name.toLower).map (·.2)

/-- The key a request comes with: `X-API-Key`, or the configured header where that is empty. -/
def AuthConfig.presentedKey (config : AuthConfig) (headers : List (String × String)) :
    Option String :=
  let key := header headers "x-api-key"
  if key.getD "" = "" then header headers config.headerName else key

def getIdentity (config : AuthConfig) (authenticator : ApiKeyAuthenticator)
    (headers : List (String × String)) : Except Unauthenticated Identity :=
  match config.mode with
  | .none => .ok ⟨"default", "anonymous"⟩
  | .apiKey => authenticator.authenticate (config.presentedKey headers)

end PyUploadX
