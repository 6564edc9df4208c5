import EvmDispatch.Json.Printer
import EvmDispatch.Surroundings
import EvmDispatch.Factory
import EvmDispatch.Text.Paint

/-!
# Running code

The command makes a virtual machine, has it execute one call, releases it, and reports the outcome,
either for a reader or as a record.
-/

namespace EvmDispatch.Command

/-- Why there is no code to run. -/
inductive CodeError where
  /-- No code was given. -/
  | missing
  /-- Code was given in two ways. -/
  | ambiguous
  /-- The file with the code could not be read. -/
  | unreadable (path : String) (cause : ReadError)
  /-- The text of the code is not hexadecimal. -/
  | invalid (cause : Hex.Error)
deriving DecidableEq, Repr

/-- The messages from the outermost to that of the first cause. -/
def CodeError.chain : CodeError → List String
  | missing => ["no code given; pass --code or --code-file"]
  | ambiguous => ["--code and --code-file are mutually exclusive"]
  | unreadable path cause => ["Failed to read code file: " ++ path, cause.message]
  | invalid cause => ["Invalid bytecode", cause.message]

/-- The text of the code, given as it is or by the path of a file. -/
def codeText (surroundings : Surroundings) : Option String → Option String → Except CodeError String
  | some code, none => .ok code
  | none, some path =>
    match surroundings.readText path with
    | .ok text => .ok text
    | .error cause => .error (.unreadable path cause)
  | some _, some _ => .error .ambiguous
  | none, none => .error .missing

/-- The code, given as hexadecimal text or by the path of a file with such a text. -/
def loadCode (surroundings : Surroundings) (code file : Option String) :
    Except CodeError Bytes := do
  let text ← codeText surroundings code file
  (Hex.decode text).mapError .invalid

/-- What to run. -/
structure RunRequest where
  /-- The name of the backend, or none for the default. -/
  vm : Option String := none
  /-- The code. -/
  code : Bytes
  /-- The call data. -/
  input : Bytes := []
  /-- The gas of the call, which is also the gas limit of the block. -/
  gas : Nat := 1000000
  /-- The rules in force. -/
  revision : Revision := .latest
  /-- The number of calls around this one. -/
  depth : Nat := 0
  /-- The number of the block. -/
  number : Int := 0
  /-- The time of the block. -/
  timestamp : Int := 0
  /-- The account that calls. -/
  caller : Address := .zero
  /-- The account whose code runs. -/
  callee : Address := .zero
  /-- Whether the call must not change the state. -/
  isStatic : Bool := false

/-- The call that is asked for. -/
def RunRequest.context (r : RunRequest) : CallContext where
  depth := r.depth
  caller := r.caller
  callee := r.callee
  code := r.code
  input := r.input
  env := { number := r.number, timestamp := r.timestamp, gasLimit := r.gas }
  schedule := .ofRevision r.revision
  isStatic := r.isStatic

/-- What a run has come to. -/
structure RunReport where
  /-- The name of the backend. -/
  backend : String
  /-- The rules in force. -/
  revision : Revision
  /-- The outcome. -/
  outcome : Outcome
  /-- The gas left. -/
  gasLeft : Nat
  /-- The gas used. -/
  gasUsed : Nat

namespace RunReport

/-- The output in hexadecimal digits. -/
def outputText (r : RunReport) : String := "0x" ++ Hex.encode r.outcome.output

/-- The report as a record. -/
def toJson (r : RunReport) : Json :=
  Json.ofMembers
    ([("backend", .text r.backend), ("revision", r.revision.toJson),
      ("outcome", .text r.outcome.label)] ++
     (r.outcome.failure?.map fun cause => ("failure", cause.toJson)).toList ++
     [("output", .text r.outputText), ("gas_left", .ofNat r.gasLeft),
      ("gas_used", .ofNat r.gasUsed)])

/-- The exit code of the command. -/
def exitCode (r : RunReport) : Nat :=
  match r.outcome with
  | .success _ _ => 0
  | .reverted _ _ => 1
  | .failure _ => 2

/-- The outcome, painted. -/
def outcomeText (colours : Bool) (r : RunReport) : String :=
  match r.outcome with
  | .success _ _ => Text.paint colours .good r.outcome.label
  | .reverted _ _ => Text.paint colours .caution r.outcome.label
  | .failure cause => Text.paint colours .bad ("failure (" ++ cause.message ++ ")")

/-- The report for a reader. -/
def text (colours : Bool) (r : RunReport) : String :=
  Text.paint colours .heading "Outcome:" ++ " " ++ r.outcomeText colours ++ "\n" ++
    "  " ++ Text.paint colours .faint "Backend:" ++ " " ++ r.backend ++
      " (" ++ r.revision.name ++ ")\n" ++
    "  " ++ Text.paint colours .faint "Output:" ++ " " ++ r.outputText ++ "\n" ++
    "  " ++ Text.paint colours .faint "Gas left:" ++ s!" {r.gasLeft} (used {r.gasUsed})\n"

end RunReport

/-- Why nothing was run. -/
inductive RunError where
  /-- There is no virtual machine. -/
  | factory (cause : FactoryError)
  /-- The call was refused. -/
  | refused (cause : PreconditionError)
deriving DecidableEq, Repr

/-- The messages from the outermost to that of the first cause. -/
def RunError.chain : RunError → List String
  | factory cause => cause.chain
  | refused cause => ["Execution rejected by host", cause.message]

/-- Runs what is asked for. -/
def run (f : Factory) (request : RunRequest) (log : Log) : Except RunError RunReport × Log :=
  match f.create request.vm log with
  | (.error e, log) => (.error (.factory e), log)
  | (.ok vm, log) =>
    let (result, vm, log) := vm.exec request.gas request.context false log
    let log := vm.release log
    match result.outcome with
    | .error e => (.error (.refused e), log)
    | .ok outcome =>
      (.ok { backend := vm.name, revision := request.revision, outcome
             gasLeft := result.gas, gasUsed := request.gas - result.gas }, log)

end EvmDispatch.Command
