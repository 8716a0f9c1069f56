import TupleSync.Config.Environment
import TupleSync.Config.Error
import TupleSync.Text.Quoting

/-!
# The configuration of the authorization store

**A configuration is read from the environment variable by variable, then checked as a whole.** What is
not set has a default. The first fault wins, in the order of the variables; the check comes last, so a
configuration that was read is one that passed it.

Shown, a configuration hides its token.
-/

set_option autoImplicit false

namespace TupleSync

/-- How permissions are enforced. -/
structure Config where
  /-- Whether they are enforced at all. -/
  enabled : Bool
  /-- Where the server is. -/
  apiUrl : String
  /-- What is sent along to be let in. -/
  apiToken : Option String
  /-- The store that is looked up by name, or made, if no id is given. -/
  storeName : String
  storeId : Option String
  modelId : Option String
  /-- Where the model is that a store without one is given. -/
  modelFile : String
  /-- In seconds. -/
  requestTimeout : Nat
  /-- How many tuples one page of a listing holds. -/
  pageSize : Nat
  /-- How many tuples one request writes. -/
  maxTuplesPerWrite : Nat
  deriving Repr, DecidableEq

namespace Config

def default : Config where
  enabled := false
  apiUrl := ""
  apiToken := none
  storeName := "heureka"
  storeId := none
  modelId := none
  modelFile := "authz/model.json"
  requestTimeout := 30
  pageSize := 100
  maxTuplesPerWrite := 100

/-- What is wrong with a configuration as a whole, if anything is. -/
def validate (c : Config) : Except ConfigError Unit :=
  if c.pageSize = 0 then .error .zeroPageSize
  else if c.maxTuplesPerWrite = 0 then .error .zeroChunk
  else if c.enabled ∧ c.apiUrl = "" then .error .endpointMissing
  else .ok ()

/-! ## From the environment -/

/-- Without the slashes at the end. -/
def withoutTrailingSlashes (s : String) : String :=
  String.ofList ((s.toList.reverse.dropWhile fun c => c == '/').reverse)

/-- Yes or no, in any of the words for it; nothing at all says no. -/
def readBool (name raw : String) : Except ConfigError Bool :=
  let word := (Text.trim raw).map Char.toLower
  if word ∈ ["1", "true", "yes", "on"] then .ok true
  else if word ∈ ["0", "false", "no", "off", ""] then .ok false
  else .error (.notBoolean name raw)

/-- The value of a variable that should hold a number below the bound. -/
def readNat (env : Environment) (name : String) (bound default : Nat) : Except ConfigError Nat :=
  match env.nonBlank? name with
  | none => .ok default
  | some raw =>
    match Text.natBelow? bound (Text.trim raw) with
    | some n => .ok n
    | none => .error (.notNumber name raw)

/-- Reads a configuration from the environment. -/
def ofEnvironment (env : Environment) : Except ConfigError Config := do
  let enabled ← match env.text? "AUTHZ_ENABLED" with
    | some raw => readBool "AUTHZ_ENABLED" raw
    | none => .ok default.enabled
  let requestTimeout ←
    readNat env "AUTHZ_REQUEST_TIMEOUT_SECONDS" UInt64.size default.requestTimeout
  let pageSize ← readNat env "AUTHZ_PAGE_SIZE" UInt32.size default.pageSize
  let maxTuplesPerWrite ←
    readNat env "AUTHZ_MAX_TUPLES_PER_WRITE" UInt64.size default.maxTuplesPerWrite
  let c : Config :=
    { enabled, requestTimeout, pageSize, maxTuplesPerWrite,
      apiUrl := ((env.text? "AUTHZ_FGA_API_URL").map withoutTrailingSlashes).getD default.apiUrl
      apiToken := env.nonBlank? "AUTHZ_FGA_API_TOKEN"
      storeName := (env.nonBlank? "AUTHZ_FGA_STORE_NAME").getD default.storeName
      storeId := env.nonBlank? "AUTHZ_FGA_STORE_ID"
      modelId := env.nonBlank? "AUTHZ_FGA_MODEL_ID"
      modelFile := (env.nonBlank? "AUTHZ_MODEL_FILE_PATH").getD default.modelFile }
  c.validate
  return c

/-! ## Shown -/

/-- A text that may be missing. -/
def showOptional : Option String → String
  | none => "None"
  | some s => "Some(" ++ Text.inQuotes s ++ ")"

/-- A length of time in seconds; one that is nothing is nothing in the smallest unit. -/
def showSeconds (n : Nat) : String := if n = 0 then "0ns" else toString n ++ "s"

/-- The fields of a configuration as they are shown. -/
def shownFields (c : Config) : List (String × String) :=
  [("enabled", toString c.enabled), ("api_url", Text.inQuotes c.apiUrl),
   ("api_token", showOptional (c.apiToken.map fun _ => "**********")),
   ("store_name", Text.inQuotes c.storeName), ("store_id", showOptional c.storeId),
   ("model_id", showOptional c.modelId), ("model_file_path", Text.inQuotes c.modelFile),
   ("request_timeout", showSeconds c.requestTimeout), ("page_size", toString c.pageSize),
   ("max_tuples_per_write", toString c.maxTuplesPerWrite)]

/-- The configuration on one line. -/
def text (c : Config) : String :=
  "AuthzConfig \x7b " ++
    ", ".intercalate (c.shownFields.map fun (name, value) => name ++ ": " ++ value) ++ " \x7d"

end Config

end TupleSync
