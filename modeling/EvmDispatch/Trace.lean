import EvmDispatch.Call
import EvmDispatch.Machine.Instruction
import EvmDispatch.Report

/-!
# The lines of a trace

A traced call is written as a line for its start, a line per step, and a line for its end. The line
of a step shows the instruction by its name under the revision in force, or by its opcode if the
revision does not define it.
-/

namespace EvmDispatch.Trace

/-- The line for the start of a call. -/
def startLine (depth : Nat) (caller callee : Address) (gas : Int) : String :=
  s!"message START {depth} " ++ caller.text ++ " -> " ++ callee.text ++ s!" gas: {gas}"

/-- The line for the end of a call. -/
def endLine (depth : Nat) (status : Status) (gasLeft : Int) : String :=
  s!"message END   {depth} status: {status.raw} gas left: {gasLeft}"

/-- The name of an opcode under a revision. -/
def opcodeText (r : Revision) (opcode : UInt8) : String :=
  match Instruction.ofOpcode? r opcode with
  | some i => i.mnemonic
  | none => "UNDEFINED(0x" ++ Hex.encode [opcode] ++ ")"

/-- The bytes of a word without the zeros in front, but at least one byte. -/
def significantBytes (w : Word) : Bytes :=
  match w.toBytes.dropWhile (· == 0) with
  | [] => [0]
  | bytes => bytes

/-- The word that was put on the stack. -/
def pushedText : Option Word → String
  | some w => " +[0x" ++ Hex.encode (significantBytes w) ++ "]"
  | none => ""

/-- The line for a step. -/
def stepLine (r : Revision) (step : Step) : String :=
  s!"{step.index} {step.codeOffset} " ++ opcodeText r step.opcode ++
    s!" {step.status.raw} {step.gasLeft} {step.stackDepth}" ++ pushedText step.pushed ++
    s!" {step.memorySize}"

end EvmDispatch.Trace
