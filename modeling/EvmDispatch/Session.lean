import EvmDispatch.Command.Configure
import EvmDispatch.Command.Run

/-!
# Sessions

A session is all that lives in a process that hosts virtual machines: the configuration that is
being built up, the factory in use, the machines by their names, and the place for the factory of
the process. `Session.perform` carries out one operation on it. A machine that is made under a name
in use replaces the one of that name, which is released after the new one has been made.
-/

namespace EvmDispatch

/-- All that lives in a process that hosts virtual machines. -/
structure Session where
  /-- The configuration that is being built up. -/
  config : HostConfig := {}
  /-- The factory in use. -/
  factory : Option Factory := none
  /-- The virtual machines by their names. -/
  vms : List (String × Vm) := []
  /-- The place for the factory of the process. -/
  installation : Installation := {}
  /-- What has happened. -/
  log : Log := {}

/-- What can be asked of a session. -/
inductive Operation where
  /-- To start a configuration anew, from a registry. -/
  | newConfig (registry : Registry)
  /-- To add an option. -/
  | addOption (option : VmOption)
  /-- To add an option by its written form. -/
  | parseOption (text : String)
  /-- To register a backend. -/
  | register (name : String) (entry : RegistryEntry)
  /-- To register the backend of an opened library. -/
  | registerLibrary (path : String) (library : Library)
  /-- To register the backend of the library at a path. -/
  | load (path : String)
  /-- To choose the default. -/
  | setDefault (name : String)
  /-- To switch tracing on or off. -/
  | setTrace (trace : Bool)
  /-- To apply a configuration file. -/
  | applyFile (path : String)
  /-- To configure the host as a command does. -/
  | configure (request : Command.HostRequest)
  /-- To use a factory for the present configuration. -/
  | finalize
  /-- To make a virtual machine, and have it trace even if the factory does not ask for it. -/
  | create (vm : String) (backend : Option String) (traced : Bool)
  /-- To make a virtual machine without a factory. -/
  | assemble (vm : String) (constructor : Constructor) (options : List VmOption)
      (fallback : Option Fallback) (traced : Bool)
  /-- To execute a call. -/
  | execute (vm : String) (gas : Nat) (context : CallContext) (observed : Bool)
  /-- To release a virtual machine. -/
  | drop (vm : String)
  /-- To run code as a command does. -/
  | run (request : Command.RunRequest)
  /-- To make a factory for the present configuration that of the process. -/
  | install
  /-- To use the factory of the process. -/
  | useInstalled

/-- What an operation has come to. -/
inductive Answer where
  /-- It is done. -/
  | done
  /-- An option was added, or has no equals sign. -/
  | optionAdded (result : Except VmOption.MissingSeparator Unit)
  /-- A backend was registered, and has replaced another one. -/
  | registered (replaced : Option RegistryEntry)
  /-- A library was loaded. -/
  | loaded (result : Except LoadError LoadedBackend)
  /-- A default was chosen. -/
  | defaultChosen (result : Except FactoryError Unit)
  /-- A configuration file could not be read. -/
  | fileRefused (cause : ConfigError)
  /-- A configuration file was read, and applied as far as possible. -/
  | fileApplied (file : ConfigFile) (result : Except ConfigError Unit)
  /-- The host was configured. -/
  | configured (result : Except Command.ConfigureError Unit)
  /-- There is a factory. -/
  | factory (result : Except FactoryError Factory)
  /-- A virtual machine was made by the factory. -/
  | created (result : Except FactoryError Vm)
  /-- A virtual machine was made without a factory. -/
  | assembled (result : Except Plugin.AbiError Vm)
  /-- A call was executed. -/
  | executed (vm : Vm) (result : CallResult)
  /-- A virtual machine was released, if there was one. -/
  | dropped (existed : Bool)
  /-- Code was run. -/
  | ran (result : Except Command.RunError Command.RunReport)
  /-- There is no virtual machine of the name. -/
  | noSuchVm

namespace Session

/-- The virtual machine of a name. -/
def vm? (s : Session) (name : String) : Option Vm := (s.vms.find? (·.1 == name)).map (·.2)

/-- Removes the virtual machine of a name, if there is one, and releases it. -/
def discard (s : Session) (name : String) : Session :=
  match s.vm? name with
  | some vm => { s with vms := s.vms.filter (·.1 != name), log := vm.release s.log }
  | none => s

/-- Puts a virtual machine under a name. -/
def keep (s : Session) (name : String) (vm : Vm) : Session :=
  let s := s.discard name
  { s with vms := (name, vm) :: s.vms }

/-- The factory in use, or else one for the present configuration. -/
def currentFactory (s : Session) : Factory := s.factory.getD s.config.finalize

/-- Applies the configuration file at a path. -/
def applyFile (s : Session) (surroundings : Surroundings) (path : String) : Answer × Session :=
  match ConfigFile.read surroundings path with
  | .error e => (.fileRefused e, s)
  | .ok file =>
    let (result, config, log) := file.apply surroundings s.config s.log
    (.fileApplied file result, { s with config, log })

/-- Makes a virtual machine by the factory. -/
def create (s : Session) (name : String) (backend : Option String) (traced : Bool) :
    Answer × Session :=
  match s.currentFactory.create backend s.log with
  | (.error e, log) => (.created (.error e), { s with log })
  | (.ok vm, log) =>
    let vm := if traced then { vm with tracing := true } else vm
    (.created (.ok vm), { s with log }.keep name vm)

/-- Makes a virtual machine without a factory. -/
def assemble (s : Session) (name : String) (constructor : Constructor) (options : List VmOption)
    (fallback : Option Fallback) (traced : Bool) : Answer × Session :=
  match constructor.instantiate s.log with
  | (.error e, log) => (.assembled (.error e), { s with log })
  | (.ok engine, log) =>
    let (vm, log) := Vm.start engine options log
    let vm := { vm with fallback, tracing := traced }
    (.assembled (.ok vm), { s with log }.keep name vm)

/-- Has a virtual machine execute a call. -/
def execute (s : Session) (name : String) (gas : Nat) (context : CallContext) (observed : Bool) :
    Answer × Session :=
  match s.vm? name with
  | none => (.noSuchVm, s)
  | some vm =>
    let (result, vm, log) := vm.exec gas context observed s.log
    (.executed vm result,
      { s with vms := (name, vm) :: s.vms.filter (·.1 != name), log })

/-- Carries out an operation. -/
def perform (s : Session) (surroundings : Surroundings) : Operation → Answer × Session
  | .newConfig registry => (.done, { s with config := { registry } })
  | .addOption option => (.done, { s with config := s.config.addOption option })
  | .parseOption text =>
    match s.config.parseOption text with
    | .ok config => (.optionAdded (.ok ()), { s with config })
    | .error e => (.optionAdded (.error e), s)
  | .register name entry =>
    (.registered (s.config.registry.get? name), { s with config := s.config.register name entry })
  | .registerLibrary path library =>
    let (result, config, log) := s.config.registerLibrary path library s.log
    (.loaded result, { s with config, log })
  | .load path =>
    let (result, config, log) := s.config.load surroundings path s.log
    (.loaded result, { s with config, log })
  | .setDefault name =>
    match s.config.setDefault name with
    | .ok config => (.defaultChosen (.ok ()), { s with config })
    | .error e => (.defaultChosen (.error e), s)
  | .setTrace trace => (.done, { s with config := s.config.setTrace trace })
  | .applyFile path => s.applyFile surroundings path
  | .configure request =>
    match Command.configure surroundings request s.log with
    | (.ok config, log) => (.configured (.ok ()), { s with config, log })
    | (.error e, log) => (.configured (.error e), { s with log })
  | .finalize =>
    (.factory (.ok s.config.finalize), { s with factory := some s.config.finalize })
  | .create name backend traced => s.create name backend traced
  | .assemble name constructor options fallback traced =>
    s.assemble name constructor options fallback traced
  | .execute name gas context observed => s.execute name gas context observed
  | .drop name => (.dropped (s.vm? name).isSome, s.discard name)
  | .run request =>
    let (result, log) := Command.run s.currentFactory request s.log
    (.ran result, { s with log })
  | .install =>
    let (result, installation) := s.installation.install s.config.finalize
    (.factory result, { s with installation })
  | .useInstalled =>
    match s.installation.get with
    | .ok f => (.factory (.ok f), { s with factory := some f })
    | .error e => (.factory (.error e), s)

/-- Carries out operations one after the other. -/
def performAll (s : Session) (surroundings : Surroundings) (operations : List Operation) :
    Session :=
  operations.foldl (fun s operation => (s.perform surroundings operation).2) s

end Session

end EvmDispatch
