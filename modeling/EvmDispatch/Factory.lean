import EvmDispatch.Registry
import EvmDispatch.Vm

/-!
# The factory of virtual machines

A factory makes virtual machines from a configuration that does not change any more. Whichever
backend a machine is made for, declined calls fall back on the one that is registered as the
reference interpreter, and every instance receives the same options.
-/

namespace EvmDispatch

/-- Why there is no factory, or no virtual machine. -/
inductive FactoryError where
  /-- No backend is registered under the name. -/
  | unknownBackend (name : String) (available : List String)
  /-- The constructor returned nothing that can be used. -/
  | instantiate (name : String) (cause : Plugin.AbiError)
  /-- There is a factory for the process already. -/
  | alreadyInstalled
  /-- There is no factory for the process yet. -/
  | notInstalled
deriving DecidableEq, Repr

namespace FactoryError

/-- The message that a user sees. -/
def message : FactoryError → String
  | unknownBackend name available =>
    "unknown VM backend '" ++ name ++ "'; available: " ++ ", ".intercalate available
  | instantiate name cause =>
    "failed to instantiate VM backend '" ++ name ++ "': " ++ cause.message
  | alreadyInstalled => "a VM factory is already installed"
  | notInstalled => "no VM factory has been installed"

/-- The message and those of its causes. -/
def chain (e : FactoryError) : List String :=
  match e with
  | instantiate _ cause => [e.message, cause.message]
  | e => [e.message]

/-- The stable code of the error. -/
def code : FactoryError → String
  | unknownBackend _ _ => "VM_001"
  | instantiate _ _ => "VM_002"
  | alreadyInstalled => "VM_003"
  | notInstalled => "VM_004"

/-- The kind of error, as it is reported with the code. -/
def category (_ : FactoryError) : String := "vm"

end FactoryError

/-- The name of the backend that declined calls fall back on. Unless another one is chosen, it is
also the default. -/
def defaultBackend : String := Interpreter.name

/-- A configuration that does not change any more. -/
structure Factory where
  /-- The registered backends. -/
  registry : Registry
  /-- The options for every instance. -/
  options : List VmOption
  /-- The name of the backend that is used if none is named. -/
  default : String
  /-- Whether virtual machines trace. -/
  trace : Bool

namespace Factory

/-- What declined calls fall back on. -/
def fallback? (f : Factory) : Option Fallback :=
  (f.registry.get? defaultBackend).map fun e =>
    { name := defaultBackend, constructor := e.constructor, options := f.options }

/-- Makes a virtual machine for the backend of a name, or for the default. -/
def create (f : Factory) (name : Option String) (log : Log) : Except FactoryError Vm × Log :=
  let name := name.getD f.default
  match f.registry.get? name with
  | none => (.error (.unknownBackend name f.registry.names), log)
  | some e =>
    match e.constructor.instantiate log with
    | (.error cause, log) => (.error (.instantiate name cause), log)
    | (.ok engine, log) =>
      let (vm, log) := Vm.start engine f.options log
      (.ok { vm with fallback := f.fallback?, tracing := f.trace }, log)

end Factory

/-- The place for the factory of the process. It is filled once. -/
structure Installation where
  /-- The factory. -/
  factory : Option Factory := none

namespace Installation

/-- The factory of the process. -/
def get (i : Installation) : Except FactoryError Factory :=
  match i.factory with
  | some f => .ok f
  | none => .error .notInstalled

/-- Makes a factory that of the process, unless there is one already. -/
def install (i : Installation) (f : Factory) : Except FactoryError Factory × Installation :=
  match i.factory with
  | some _ => (.error .alreadyInstalled, i)
  | none => (.ok f, { factory := some f })

end Installation

end EvmDispatch
