import GraphWalk.Client
import GraphWalk.Config.Environment
import GraphWalk.Text.Escaped
import GraphWalk.Text.Numeral

/-!
# Configuration from the environment

What a client and a transport are built from when the environment says it.

## Main definitions

* `ConfigError` — what can be wrong with the environment.
* `ConfigError.message`, `ConfigError.code`, `ConfigError.help?` — what is said of it.
* `ClientConfig.ofEnvironment` — the configuration of a client.
* `endpointOf` — the address of the server.
-/

namespace GraphWalk

/-- What can be wrong with the environment. -/
inductive ConfigError
  /-- The schema file was not read. -/
  | schemaRead (path : String) (reason : ReadError)
  /-- A variable has a value that cannot be used. -/
  | invalidValue (name : String) (value : String)
  /-- A variable that is needed is not set. -/
  | missing (name : String)
  deriving DecidableEq, Repr, Inhabited

namespace ConfigError

/-- The text of an error. -/
def message : ConfigError → String
  | .schemaRead path reason => "failed to read schema file at " ++ path ++ ": " ++ reason.message
  | .invalidValue name value => "invalid value for " ++ name ++ ": " ++ Text.escaped value
  | .missing name => "missing required setting " ++ name

/-- The code of an error. -/
def code : ConfigError → String
  | .schemaRead .. => "pathql::config::schema_read"
  | .invalidValue .. => "pathql::config::invalid_value"
  | .missing _ => "pathql::config::missing"

/-- What can be done about an error. -/
def help? : ConfigError → Option String
  | .missing _ => some "Set it in the environment or in a .env file."
  | _ => none

end ConfigError

/-- The variable that names the schema file. -/
def schemaPathVariable : String := "PATHQL_SCHEMA_PATH"

/-- The variable that holds the flush delay. -/
def flushDelayVariable : String := "PATHQL_FLUSH_DELAY_MS"

/-- The variable that holds the quiet window. -/
def quietWindowVariable : String := "PATHQL_QUIET_WINDOW_MS"

/-- The variable that names the policy for lists. -/
def listPolicyVariable : String := "PATHQL_LIST_MERGE"

/-- The variable that holds the address of the server. -/
def endpointVariable : String := "PATHQL_ENDPOINT"

/-- The value of a variable, unless it holds nothing but blanks. -/
def Environment.nonBlank? (env : Environment) (name : String) : Option String :=
  (Dict.get? env name).filter fun value => !Text.isBlankText value.toList

namespace ClientConfig

/-- The text of the schema file, if one is named. -/
def schemaTextOf (env : Environment) (directory : Directory) :
    Except ConfigError (Option String) :=
  match env.nonBlank? schemaPathVariable with
  | none => .ok none
  | some path =>
    match directory.readText path with
    | .ok text => .ok (some text)
    | .error reason => .error (.schemaRead path reason)

/-- A number of milliseconds; the usual one when the variable is not set. -/
def millisecondsOf (env : Environment) (name : String) (usual : Nat) : Except ConfigError Nat :=
  match Dict.get? env name with
  | none => .ok usual
  | some value =>
    match Text.readNatural? Text.maxWord64 (Text.trim value.toList) with
    | some n => .ok n
    | none => .error (.invalidValue name value)

/-- The policy for lists; the usual one when the variable is not set. -/
def listPolicyOf (env : Environment) : Except ConfigError ListPolicy :=
  match Dict.get? env listPolicyVariable with
  | none => .ok .concat
  | some value =>
    match ListPolicy.ofText? value with
    | .ok policy => .ok policy
    | .error _ => .error (.invalidValue listPolicyVariable value)

/-- The configuration that the environment says.  The variables are looked at one after the other,
and the first that is wrong decides. -/
def ofEnvironment (env : Environment) (directory : Directory) :
    Except ConfigError ClientConfig := do
  let env := env.load directory
  let schemaText ← schemaTextOf env directory
  let flushDelay ← millisecondsOf env flushDelayVariable 0
  let quietWindow ← millisecondsOf env quietWindowVariable 10
  let lists ← listPolicyOf env
  return { schemaText, flushDelay, quietWindow, lists }

end ClientConfig

/-- The address of the server. -/
def endpointOf (env : Environment) (directory : Directory) : Except ConfigError String :=
  match (env.load directory).nonBlank? endpointVariable with
  | some endpoint => .ok endpoint
  | none => .error (.missing endpointVariable)

/-- Why a client was not built. -/
inductive ClientError
  /-- Nothing runs that could wake a flush task. -/
  | noRuntime
  /-- The configuration is wrong. -/
  | config (error : ConfigError)
  deriving DecidableEq, Repr, Inhabited

namespace ClientError

/-- The text of an error. -/
def message : ClientError → String
  | .noRuntime => "no tokio runtime available to schedule batch flushes"
  | .config error => error.message

/-- The code of an error. -/
def code : ClientError → String
  | .noRuntime => "pathql::client::no_runtime"
  | .config error => error.code

/-- What can be done about an error. -/
def help? : ClientError → Option String
  | .noRuntime =>
    some "Build the client from within a tokio runtime (e.g. inside #[tokio::main])."
  | .config error => error.help?

end ClientError

/-- A client of a configuration that may be wrong.  Without a runtime there is none; a wrong
configuration is reported first. -/
def Client.build (config : Except ConfigError ClientConfig) (hasRuntime : Bool) :
    Except ClientError Client :=
  match config with
  | .error e => .error (.config e)
  | .ok config => if hasRuntime then .ok (.new config) else .error .noRuntime

end GraphWalk
