import EvmDispatch.Factory
import EvmDispatch.Surroundings

/-!
# Host configuration

A configuration is built up before any virtual machine is made: options are collected, libraries are
loaded, the default is chosen. Each operation either succeeds or leaves the configuration as it is.
`finalize` turns the configuration into a factory.
-/

namespace EvmDispatch

/-- A configuration that is being built up. -/
structure HostConfig where
  /-- The registered backends. -/
  registry : Registry := .builtins
  /-- The options for every instance. -/
  options : List VmOption := []
  /-- The name of the backend that is used if none is named. -/
  default : String := defaultBackend
  /-- Whether virtual machines trace. -/
  trace : Bool := false

namespace HostConfig

/-- Adds an option. -/
def addOption (c : HostConfig) (o : VmOption) : HostConfig :=
  { c with options := c.options ++ [o] }

/-- Adds an option by its written form. -/
def parseOption (c : HostConfig) (text : String) : Except VmOption.MissingSeparator HostConfig :=
  match VmOption.parse text with
  | .ok o => .ok (c.addOption o)
  | .error e => .error e

/-- Adds options by their written forms, up to the first that is none. -/
def parseOptions (c : HostConfig) : List String → Except VmOption.MissingSeparator Unit × HostConfig
  | [] => (.ok (), c)
  | text :: rest =>
    match c.parseOption text with
    | .ok c => c.parseOptions rest
    | .error e => (.error e, c)

/-- Registers a backend. -/
def register (c : HostConfig) (name : String) (e : RegistryEntry) : HostConfig :=
  { c with registry := c.registry.insert name e }

/-- Registers the backend of an opened library. -/
def registerLibrary (c : HostConfig) (path : String) (library : Library) (log : Log) :
    Except LoadError LoadedBackend × HostConfig × Log :=
  let (answer, registry, log) := c.registry.insertLibrary path library log
  (answer, { c with registry }, log)

/-- Registers the backend of the library at a path. -/
def load (c : HostConfig) (surroundings : Surroundings) (path : String) (log : Log) :
    Except LoadError LoadedBackend × HostConfig × Log :=
  let (answer, registry, log) := c.registry.load surroundings path log
  (answer, { c with registry }, log)

/-- Registers the backends of the libraries at several paths, up to the first that fails. -/
def loadAll (surroundings : Surroundings) (c : HostConfig) (log : Log) :
    List String → Except LoadError Unit × HostConfig × Log
  | [] => (.ok (), c, log)
  | path :: rest =>
    match c.load surroundings path log with
    | (.ok _, c, log) => loadAll surroundings c log rest
    | (.error e, c, log) => (.error e, c, log)

/-- Chooses the default among the registered backends. -/
def setDefault (c : HostConfig) (name : String) : Except FactoryError HostConfig :=
  if c.registry.contains name then .ok { c with default := name }
  else .error (.unknownBackend name c.registry.names)

/-- Switches tracing on or off. -/
def setTrace (c : HostConfig) (trace : Bool) : HostConfig := { c with trace }

/-- Chooses the default, if one is named, and switches tracing on if that is asked for. -/
def choose (c : HostConfig) (name : Option String) (trace : Bool) :
    Except FactoryError HostConfig :=
  let chosen := match name with
    | some name => c.setDefault name
    | none => .ok c
  match chosen with
  | .ok c => .ok (if trace then c.setTrace true else c)
  | .error e => .error e

/-- The factory for the configuration. -/
def finalize (c : HostConfig) : Factory where
  registry := c.registry
  options := c.options
  default := c.default
  trace := c.trace

end HostConfig

end EvmDispatch
