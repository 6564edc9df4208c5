import EvmDispatch.Instance
import EvmDispatch.Outcome
import EvmDispatch.Trace
import EvmDispatch.VmOption

/-!
# Virtual machines

A virtual machine stands between a caller and one instance of a backend. It checks the call, selects
the revision, calls the instance, and tells the caller the outcome. If the backend declines the
call, a new instance of the fallback backend gets it, with the same gas, and is released afterwards.
The fallback has none of its own: if it declines too, the call has failed.

A virtual machine that traces writes the lines of the call into the log, and the steps that it
writes are those that the caller observes. Whether it traces makes no other difference.
-/

namespace EvmDispatch

/-- What a declined call falls back on. -/
structure Fallback where
  /-- The name under which the backend is registered. -/
  name : String
  /-- What makes its instances. -/
  constructor : Constructor
  /-- The options that each instance receives. -/
  options : List VmOption

/-- An instance of a backend and what it takes to serve calls with it. -/
structure Vm where
  /-- The instance. -/
  engine : Instance
  /-- What a declined call falls back on. -/
  fallback : Option Fallback := none
  /-- Whether calls are traced. -/
  tracing : Bool := false

/-- What a call has come to. -/
structure CallResult where
  /-- The outcome, or why the call was refused. -/
  outcome : Except PreconditionError Outcome
  /-- The gas that the caller has left. -/
  gas : Nat
  /-- The steps for a caller that observes. -/
  steps : List Step

/-- The result of a call whose caller has observed steps before. -/
def CallResult.after (result : CallResult) (before : List Step) : CallResult :=
  { result with steps := before ++ result.steps }

namespace Vm

/-- The notice about an option that was not accepted. -/
def optionNotice (engine : String) (o : VmOption) : OptionAnswer → Option Event
  | .accepted => none
  | .invalidName =>
    some (.notice .warning ("Unknown option '" ++ o.name ++ "' for VM " ++ engine))
  | .invalidValue =>
    some (.notice .warning
      ("Invalid value '" ++ o.value ++ "' for option '" ++ o.name ++ "' of VM " ++ engine))

/-- Sets options in their order. Those that are not accepted are reported and skipped. -/
def applyOptions (engine : Instance) (log : Log) : List VmOption → Instance × Log
  | [] => (engine, log)
  | o :: rest =>
    let (answer, engine, log) := engine.setOption o.name o.value log
    applyOptions engine (log.addAll (optionNotice engine.name o answer).toList) rest

/-- Sets up an instance. -/
def start (engine : Instance) (options : List VmOption) (log : Log) : Vm × Log :=
  let (engine, log) := applyOptions engine log options
  ({ engine }, log)

/-- The name of the backend. -/
def name (vm : Vm) : String := vm.engine.name

/-- Writes lines of a trace, if calls are traced. -/
def traceLines (vm : Vm) (lines : List String) (log : Log) : Log :=
  if vm.tracing then log.addAll (lines.map .line) else log

/-- Releases the instance. -/
def release (vm : Vm) (log : Log) : Log := vm.engine.release log

/-- Has the instance execute a message, and writes the lines of the call. -/
def serve (vm : Vm) (ctx : CallContext) (message : Message) (observed : Bool) (log : Log) :
    Reply × Instance × Log :=
  let r := ctx.schedule.revision
  let log := vm.traceLines [Trace.startLine ctx.depth ctx.caller ctx.callee message.gas] log
  let (reply, engine, log) := vm.engine.execute r message (vm.tracing || observed) log
  let log := vm.traceLines (reply.steps.map (Trace.stepLine r)) log
  let log := vm.traceLines [Trace.endLine ctx.depth reply.status reply.gasLeft] log
  (reply, engine, log)

/-- The outcome of a call that nobody takes. -/
def declined : Outcome := .failure (.internalError Status.rejected.raw)

/-- The result of a call that has an outcome. -/
def settled (outcome : Outcome) (steps : List Step) : CallResult where
  outcome := .ok outcome
  gas := outcome.gasLeft
  steps := steps

mutual

/-- Executes a call. -/
def exec (vm : Vm) (gas : Nat) (ctx : CallContext) (observed : Bool) (log : Log) :
    CallResult × Vm × Log :=
  match ctx.message? gas with
  | .error e => ({ outcome := .error e, gas, steps := [] }, vm, log)
  | .ok message =>
    let (reply, engine, log) := vm.serve ctx message observed log
    let steps := if observed then reply.steps else []
    match Outcome.ofAnswer? reply.status reply.gasLeft reply.output with
    | some outcome => (settled outcome steps, { vm with engine }, log)
    | none =>
      let (result, vm, log) := { vm with engine }.fallBack gas ctx observed log
      (result.after steps, vm, log)
termination_by (if vm.fallback.isSome then 1 else 0, 1)

/-- Has a new instance of the fallback execute a call that was declined, as a virtual machine of its
own that has no fallback. The printer of the trace goes along with the call and comes back. -/
def fallBack (vm : Vm) (gas : Nat) (ctx : CallContext) (observed : Bool) (log : Log) :
    CallResult × Vm × Log :=
  match _h : vm.fallback with
  | none => (settled declined [], vm, log)
  | some fallback =>
    let log := log.add (.notice .warning ("Execution rejected by " ++ vm.name ++
      ", executing with default VM implementation " ++ fallback.name))
    match fallback.constructor.instantiate log with
    | (.error e, log) =>
      let log := log.add (.notice .error
        ("Failed to instantiate default VM " ++ fallback.name ++ ": " ++ e.message))
      (settled declined [], vm, log)
    | (.ok engine, log) =>
      let (engine, log) := applyOptions engine log fallback.options
      let substitute : Vm := { engine, tracing := vm.tracing }
      let (result, substitute, log) := substitute.exec gas ctx observed log
      (result, { vm with tracing := substitute.tracing }, substitute.release log)
termination_by (if vm.fallback.isSome then 1 else 0, 0)
decreasing_by
  apply Prod.Lex.left
  simp [_h]

end

/-- The form that a developer sees. -/
def debugText (vm : Vm) : String :=
  "VmAdapter \x7b backend: " ++ Text.quoted vm.name ++ ", fallback: " ++
    Text.quotedOption (vm.fallback.map (·.name)) ++ s!", tracing: {vm.tracing}" ++ " \x7d"

end Vm

/-- The form that a developer sees. -/
def Fallback.debugText (f : Fallback) : String :=
  "Fallback \x7b name: " ++ Text.quoted f.name ++ ", options: " ++
    VmOption.listDebugText f.options ++ ", .. \x7d"

end EvmDispatch
