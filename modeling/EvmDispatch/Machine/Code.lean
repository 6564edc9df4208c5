import EvmDispatch.Machine.Instruction
import EvmDispatch.Text.Hex

/-!
# Code as a sequence of instructions

Code is read from its start. An instruction takes its opcode and the bytes that belong to it, and
the next one starts behind them; where the code ends early the missing bytes count as zeros. Offsets
inside such bytes are no instructions, whatever the bytes are. The scans below go through the code
once and count down the bytes that still belong to the instruction before; the relation
`InstructionStart` says the same without a scan.
-/

namespace EvmDispatch.Code

/-- The byte at an offset, which beyond the end of the code is zero. -/
def byteAt (code : Bytes) (offset : Nat) : UInt8 := code.getD offset 0

/-- The offset behind the instruction at an offset. -/
def nextOffset (code : Bytes) (offset : Nat) : Nat :=
  offset + 1 + Instruction.immediateSize (byteAt code offset)

/-- The offsets inside the code, or just behind it, at which an instruction starts. -/
inductive InstructionStart (code : Bytes) : Nat → Prop where
  /-- The first instruction starts at the start of the code. -/
  | first : InstructionStart code 0
  /-- An instruction inside the code is followed by another one. -/
  | next {offset : Nat} (start : InstructionStart code offset) (inside : offset < code.length) :
    InstructionStart code (nextOffset code offset)

/-- For each byte behind the first `skip` ones, whether it is a jump destination. The skipped bytes
belong to the instruction before, so they are none. -/
def jumpTableFrom : Nat → Bytes → List Bool
  | _, [] => []
  | skip + 1, _ :: rest => false :: jumpTableFrom skip rest
  | 0, b :: rest =>
    (b == Instruction.jumpDestinationByte) :: jumpTableFrom (Instruction.immediateSize b) rest

/-- For each byte of the code whether it is a jump destination. -/
def jumpTable (code : Bytes) : List Bool := jumpTableFrom 0 code

/-- Whether no instruction behind the first `skip` bytes jumps. -/
def isStraightFrom : Nat → Bytes → Bool
  | _, [] => true
  | skip + 1, _ :: rest => isStraightFrom skip rest
  | 0, b :: rest => !Instruction.isJumpByte b && isStraightFrom (Instruction.immediateSize b) rest

/-- Whether no instruction of the code jumps. -/
def isStraightLine (code : Bytes) : Bool := isStraightFrom 0 code

end EvmDispatch.Code
