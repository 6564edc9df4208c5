import EvmDispatch.Machine.State
import EvmDispatch.Machine.Tariff
import EvmDispatch.Word.Arithmetic

/-!
# Carrying out an instruction

`Machine.perform` says what each instruction does once its price is paid, and
`Frame.executeAt` puts the two together. Operands are taken from the stack before anything else can
fail, in the order of their positions, except that a frame that must not change the state notices
this first.
-/

namespace EvmDispatch

open Machine

/-- The value of an instruction with two operands, the topmost first. -/
def BinaryInstruction.eval : BinaryInstruction → Word → Word → Word
  | add, a, b => a.add b
  | mul, a, b => a.mul b
  | sub, a, b => a.sub b
  | lt, a, b => .ofBool (a.compare b == .lt)
  | gt, a, b => .ofBool (a.compare b == .gt)
  | eq, a, b => .ofBool (a == b)
  | and, a, b => a.and b
  | or, a, b => a.or b
  | xor, a, b => a.xor b
  | shl, shift, a => a.shiftLeft shift
  | shr, shift, a => a.shiftRight shift

/-- The value of an instruction with one operand. -/
def UnaryInstruction.eval : UnaryInstruction → Word → Word
  | isZero, a => .ofBool a.isZero
  | not, a => a.not

/-- The property of the frame or of the machine that an instruction asks for. -/
def QueryInstruction.eval (f : Frame) (offset : Nat) (m : Machine) : QueryInstruction → Word
  | address => .ofAddress f.callee
  | caller => .ofAddress f.caller
  | callDataSize => .ofNat f.input.length
  | codeSize => .ofNat f.code.size
  | pc => .ofNat offset
  | memorySize => .ofNat m.memory.size
  | gas => .ofNat m.gas.toNat

namespace Frame

/-- Fails if the frame must not change the state. -/
def requireMutable (f : Frame) : Action Unit := do
  if f.isStatic then throw .staticModeViolation

/-- Goes to an offset, which must be a jump destination. -/
def jumpTo (f : Frame) (target : Word) : Action Control := do
  match target.index? with
  | some offset =>
    if f.jumpTargets.getD offset false then return .jump offset else throw .badJumpDestination
  | none => throw .badJumpDestination

/-- The word of the `size` bytes behind the opcode at an offset. Behind its end, code goes on with
zeros. -/
def immediateAt (f : Frame) (offset size : Nat) : Word :=
  .ofNat (Word.natOfBytes ((List.range size).map fun i => f.opcodeAt (offset + 1 + i)))

end Frame

namespace Machine

/-- Drops a number of operands. -/
def popMany : Nat → Action Unit
  | 0 => pure ()
  | n + 1 => do
    let _ ← pop
    popMany n

/-- Ends the execution with a range of the memory as output. -/
def finish (reverts : Bool) : Action Control := do
  let offset ← pop
  let size ← pop
  let range ← growRange offset size
  return .finish reverts range.1 range.2

/-- What an instruction at an offset of the code does once its price is paid. -/
def perform (f : Frame) (offset : Nat) : Instruction → Action Control
  | .stop => return .finish false 0 0
  | .binary op => do
    let a ← pop
    let b ← pop
    push (op.eval a b)
    return .next
  | .unary op => do
    let a ← pop
    push (op.eval a)
    return .next
  | .query op => do
    push (op.eval f offset (← get))
    return .next
  | .callDataLoad => do
    let start ← pop
    push (.loadPadded f.input start)
    return .next
  | .pop => do
    let _ ← pop
    return .next
  | .memoryLoad => do
    let start ← grow (← pop) 32
    push (.ofSlice (← readMemory start 32))
    return .next
  | .memoryStore => do
    let target ← pop
    let value ← pop
    writeMemory (← grow target 32) value.toBytes
    return .next
  | .memoryStoreByte => do
    let target ← pop
    let value ← pop
    writeMemory (← grow target 1) [value.lowByte]
    return .next
  | .storageLoad => do
    let key ← pop
    push ((← get).storage.load key)
    return .next
  | .storageStore => do
    f.requireMutable
    let key ← pop
    let value ← pop
    let current := (← get).storage.load key
    charge (storePrice (current.isZero && !value.isZero))
    modify fun m => { m with storage := m.storage.store key value }
    return .next
  | .jump => do
    f.jumpTo (← pop)
  | .jumpIf => do
    let target ← pop
    let condition ← pop
    if condition.isZero then return .next else f.jumpTo target
  | .jumpDestination => return .next
  | .push size => do
    push (f.immediateAt offset size)
    return .next
  | .dup n => do
    updateStack fun s => s.dup n
    return .next
  | .swap n => do
    updateStack fun s => s.swap n
    return .next
  | .log topics => do
    f.requireMutable
    let start ← pop
    let size ← pop
    popMany topics
    match size.index? with
    | some count => charge (logDataPrice count)
    | none => throw .outOfGas
    let _ ← growRange start size
    return .next
  | .halt => finish false
  | .revert => finish true
  | .invalid => throw .undefinedInstruction
  | .host _ => throw .internalError

end Machine

/-- The instruction of an opcode, if it may be executed. The instruction that fails on purpose may
not. -/
def Instruction.executable? (r : Revision) (opcode : UInt8) : Option Instruction :=
  (ofOpcode? r opcode).filter (· != .invalid)

/-- A revision executes an opcode as nothing else than what the opcode matrix says it is. -/
theorem Instruction.ofByte?_of_executable? {r : Revision} {opcode : UInt8} {i : Instruction}
    (h : executable? r opcode = some i) : ofByte? opcode = some i := by
  unfold executable? ofOpcode? at h
  simp only [Option.filter_eq_some_iff] at h
  exact h.1.1

/-- Executes the instruction at an offset of the code. -/
def Frame.executeAt (f : Frame) (offset : Nat) : Action Control := do
  match Instruction.executable? f.revision (f.opcodeAt offset) with
  | some i =>
    charge (i.price f.revision)
    perform f offset i
  | none => throw .undefinedInstruction

end EvmDispatch
