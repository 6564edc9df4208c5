import EvmDispatch.ConfigFile.Apply

/-!
# Configuring the host

A command configures the host from a file, if it names one, and from what it says itself. The file
comes first; on top of it come the libraries, the options, the default and the tracing of the
command, in that order. The default may be the backend of any library named before it.
-/

namespace EvmDispatch.Command

/-- What a command says about the host. -/
structure HostRequest where
  /-- The path of a configuration file. -/
  config : Option String := none
  /-- The paths of libraries. -/
  loads : List String := []
  /-- The options in their written form. -/
  options : List String := []
  /-- The name of the default. -/
  vm : Option String := none
  /-- Whether to trace. -/
  trace : Bool := false
deriving DecidableEq, Repr

/-- Why the host could not be configured. -/
inductive ConfigureError where
  /-- The file could not be read. -/
  | file (cause : ConfigError)
  /-- The file could not be applied. -/
  | apply (path : String) (cause : ConfigError)
  /-- A library of the command could not be loaded. -/
  | load (cause : LoadError)
  /-- An option of the command has no equals sign. -/
  | option (cause : VmOption.MissingSeparator)
  /-- The default of the command is not registered. -/
  | factory (cause : FactoryError)
deriving DecidableEq, Repr

/-- The messages from the outermost to that of the first cause. -/
def ConfigureError.chain : ConfigureError → List String
  | file cause => cause.chain
  | apply path cause => ("Failed to apply config " ++ path) :: cause.chain
  | load cause => cause.chain
  | option cause => [cause.message]
  | factory cause => cause.chain

/-- The configuration after the file, if there is one. -/
def startingConfig (surroundings : Surroundings) (path : Option String) (log : Log) :
    Except ConfigureError HostConfig × Log :=
  match path with
  | none => (.ok {}, log)
  | some path =>
    match ConfigFile.read surroundings path with
    | .error e => (.error (.file e), log)
    | .ok file =>
      match file.apply surroundings {} log with
      | (.error e, _, log) => (.error (.apply path e), log)
      | (.ok _, c, log) => (.ok c, log)

/-- The configuration that a command asks for. -/
def configure (surroundings : Surroundings) (request : HostRequest) (log : Log) :
    Except ConfigureError HostConfig × Log :=
  match startingConfig surroundings request.config log with
  | (.error e, log) => (.error e, log)
  | (.ok c, log) =>
    match c.loadAll surroundings log request.loads with
    | (.error e, _, log) => (.error (.load e), log)
    | (.ok _, c, log) =>
      match c.parseOptions request.options with
      | (.error e, _) => (.error (.option e), log)
      | (.ok _, c) =>
        match c.choose request.vm request.trace with
        | .error e => (.error (.factory e), log)
        | .ok c => (.ok c, log)

end EvmDispatch.Command
