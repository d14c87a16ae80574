/-
Module: Priestly.Config.Load
Layer: Config
Purpose: The rest of `config.py`: the validated configuration, the file it is loaded from, and the password
  from the environment; and what the `main` of `cli/server.py` makes of it. A configuration is validated when
  it is loaded, and not again when the environment or the command line change it.
Imports: Priestly.Cli.Node, Priestly.Config.Jsonx
Trusted boundary: `FieldReader` stands for pydantic, `loads` for `json.loads`
Main exports: Config.ServerConfig, Config.modelValidate, Config.load, Config.passwordFromEnv, Config.loadWithEnv,
  Config.ServerArgs, Config.nodeConfig
-/
import Priestly.Cli.Node
import Priestly.Config.Jsonx

namespace Priestly

open ByteCodec

namespace Config

/-! ### ServerConfig -/

/-- `ServerConfig`. -/
structure ServerConfig where
  serverName : String
  host : String
  port : Int
  password : Option String
deriving DecidableEq, Repr

namespace ServerConfig

/-- The bounds of the field `port`. -/
def Valid (cfg : ServerConfig) : Prop := 1 ≤ cfg.port ∧ cfg.port ≤ 65535

instance (cfg : ServerConfig) : Decidable cfg.Valid := inferInstanceAs (Decidable (_ ∧ _))

/-- `ServerConfig()`. -/
def default : ServerConfig where
  serverName := "priestly"
  host := "localhost"
  port := 8765
  password := none

/-- The fields. -/
def fields : List String := ["server_name", "host", "port", "password"]

/-- The part that the session handler reads. -/
def handlerPart (cfg : ServerConfig) : Priestly.ServerConfig where
  serverName := cfg.serverName
  password := cfg.password

/-- `password_required`. -/
def passwordRequired (cfg : ServerConfig) : Bool := cfg.handlerPart.passwordRequired

end ServerConfig

/-- A configuration that has been validated. -/
abbrev ValidConfig := { cfg : ServerConfig // cfg.Valid }

/-- The defaults pass their own check. -/
theorem ServerConfig.valid_default : ServerConfig.default.Valid := by decide

/-! ### Validation -/

/-- How pydantic reads the value of a field of each type, and the text of its `ValidationError`. -/
structure FieldReader (ν : Type) where
  str : ν → Option String
  int : ν → Option Int
  optionalStr : ν → Option (Option String)
  errorText : OrderedDict String ν → String

section Validation

variable {ν : Type} (pydantic : FieldReader ν)

/-- A field: its default where the key is absent, and `none` where the value does not fit. -/
def field {α : Type} (read : ν → Option α) (default : α) (data : OrderedDict String ν) (name : String) :
    Option α :=
  match data.get name with
  | none => some default
  | some value => read value

/-- The fields of the configuration, unchecked. -/
def readFields (data : OrderedDict String ν) : Option ServerConfig := do
  let serverName ← field pydantic.str ServerConfig.default.serverName data "server_name"
  let host ← field pydantic.str ServerConfig.default.host data "host"
  let port ← field pydantic.int ServerConfig.default.port data "port"
  let password ← field pydantic.optionalStr ServerConfig.default.password data "password"
  return { serverName, host, port, password }

/-- `ServerConfig.model_validate`. Unknown keys are rejected. -/
def modelValidate (data : OrderedDict String ν) : Except Exn ValidConfig :=
  match readFields pydantic data with
  | none => .error (.validationError (pydantic.errorText data))
  | some cfg =>
      if h : cfg.Valid then
        if data.keys.all fun key => key ∈ ServerConfig.fields then .ok ⟨cfg, h⟩
        else .error (.validationError (pydantic.errorText data))
      else .error (.validationError (pydantic.errorText data))

/-! ### load -/

/-- Line ends in text mode: a carriage return, with or without a line feed behind it, is read as one line
feed. -/
def universalNewlines : List Char → List Char
  | [] => []
  | '\r' :: '\n' :: rest => '\n' :: universalNewlines rest
  | '\r' :: rest => '\n' :: universalNewlines rest
  | c :: rest => c :: universalNewlines rest

/-- `p.read_text(encoding="utf-8")`. -/
def readText (rt : Runtime) (data : Bytes) : Except Exn (List Char) := do
  return universalNewlines (← rt.decode data).toList

variable (rt : Runtime) (loads : List Char → Except Exn (Loaded String ν))

/-- `load`. There may be no file at the path. -/
def load : Option Bytes → Except Exn ValidConfig
  | none => .ok ⟨.default, ServerConfig.valid_default⟩
  | some data => do modelValidate pydantic (← parseJsonx loads (← readText rt data))

/-! ### The environment -/

/-- A text that is not empty. -/
def truthy (text : Option String) : Option String := text.filter (· ≠ "")

/-- `_PASSWORD_ENV_VARS`. -/
def passwordEnvVars : List String := ["PRIESTLY_PASSWD", "PASSWD"]

/-- `password_from_env`. -/
def passwordFromEnv (env : List (String × String)) : Option String :=
  passwordEnvVars.findSome? fun name => truthy (env.lookup name)

/-- `load_with_env`. -/
def loadWithEnv (file : Option Bytes) (env : List (String × String)) : Except Exn ServerConfig := do
  let cfg ← load pydantic rt loads file
  match passwordFromEnv env with
  | some envPassword => return { cfg.val with password := some envPassword }
  | none => return cfg.val

/-! ### The command line -/

/-- The options of the server that change its configuration. -/
structure ServerArgs where
  name : Option String
  host : Option String
  port : Option Int
deriving DecidableEq, Repr

/-- The overrides of `main`. An empty text and the port 0 count as not given. -/
def ServerArgs.override (args : ServerArgs) (cfg : ServerConfig) : ServerConfig where
  serverName := (truthy args.name).getD cfg.serverName
  host := (truthy args.host).getD cfg.host
  port := (args.port.filter (· ≠ 0)).getD cfg.port
  password := cfg.password

/-- The configuration that `main` serves. -/
def nodeConfig (args : ServerArgs) (file : Option Bytes) (env : List (String × String)) :
    Except Exn ServerConfig := do
  return args.override (← loadWithEnv pydantic rt loads file env)

end Validation

end Config

end Priestly
