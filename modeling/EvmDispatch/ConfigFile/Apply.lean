import EvmDispatch.HostConfig

/-!
# Applying configuration files

Applying a configuration file to a configuration loads its libraries, adds its options, chooses its
default, which may be the backend of one of these libraries, and switches tracing on. The first
failure ends this; what was applied before it stays.
-/

namespace EvmDispatch

/-- Why a configuration file could not be read or applied. -/
inductive ConfigError where
  /-- The file could not be read. -/
  | read (path : String) (cause : ReadError)
  /-- The file is no configuration. -/
  | parse (path : String)
  /-- An option has no equals sign. -/
  | option (cause : VmOption.MissingSeparator)
  /-- A library could not be loaded. -/
  | load (cause : LoadError)
  /-- The default is not registered. -/
  | factory (cause : FactoryError)
deriving DecidableEq, Repr

namespace ConfigError

/-- The message that a user sees. -/
def message : ConfigError → String
  | read path cause => "failed to read config " ++ path ++ ": " ++ cause.message
  | parse path => "failed to parse config " ++ path
  | option cause => cause.message
  | load cause => cause.message
  | factory cause => cause.message

/-- The message and those of its causes. -/
def chain (e : ConfigError) : List String :=
  match e with
  | read _ cause => [e.message, cause.message]
  | parse _ => [e.message]
  | option cause => [cause.message]
  | load cause => cause.chain
  | factory cause => cause.chain

/-- The stable code of the error. -/
def code : ConfigError → String
  | read _ _ => "CONFIG_001"
  | parse _ => "CONFIG_002"
  | option cause => cause.code
  | load cause => cause.code
  | factory cause => cause.code

/-- The kind of error, as it is reported with the code. -/
def category : ConfigError → String
  | read _ _ => "config"
  | parse _ => "config"
  | option cause => cause.category
  | load cause => cause.category
  | factory cause => cause.category

end ConfigError

namespace ConfigFile

/-- Reads the configuration file at a path. -/
def read (surroundings : Surroundings) (path : String) : Except ConfigError ConfigFile :=
  match surroundings.readText path with
  | .error cause => .error (.read path cause)
  | .ok text =>
    match surroundings.parseConfig text with
    | some file => .ok { file with directory := Path.parent? path }
    | none => .error (.parse path)

/-- Applies the file to a configuration. -/
def apply (file : ConfigFile) (surroundings : Surroundings) (c : HostConfig) (log : Log) :
    Except ConfigError Unit × HostConfig × Log :=
  match c.loadAll surroundings log (file.load.map file.resolve) with
  | (.error e, c, log) => (.error (.load e), c, log)
  | (.ok _, c, log) =>
    match c.parseOptions file.options with
    | (.error e, c) => (.error (.option e), c, log)
    | (.ok _, c) =>
      match c.choose file.vm file.trace with
      | .error e => (.error (.factory e), c, log)
      | .ok c => (.ok (), c, log)

end ConfigFile

end EvmDispatch
