import EvmDispatch.Status
import EvmDispatch.Word.Basic

/-!
# What an engine reports

An engine answers a call by a `Reply`. If it is observed, it also reports each instruction after it
has run, whether it succeeded or not, as a `Step`.
-/

namespace EvmDispatch

/-- One executed instruction. -/
structure Step where
  /-- The number of steps before it, modulo `2 ^ 32`. -/
  index : UInt32
  /-- The offset of the opcode. -/
  codeOffset : Nat
  /-- The opcode. -/
  opcode : UInt8
  /-- How the instruction ended; success also if the execution goes on. -/
  status : Status
  /-- The gas after it. -/
  gasLeft : Int
  /-- The height of the stack after it. -/
  stackDepth : Nat
  /-- The word that it has put on the stack, if it has and if the engine tells. -/
  pushed : Option Word
  /-- The size of the memory after it. -/
  memorySize : Nat
deriving DecidableEq, Repr

/-- The answer of an engine to a call. -/
structure Reply where
  /-- How the execution ended. -/
  status : Status
  /-- The gas that is left. -/
  gasLeft : Int := 0
  /-- The output. -/
  output : Bytes := []
  /-- The steps, if the engine was observed. -/
  steps : List Step := []
deriving DecidableEq, Repr

end EvmDispatch
