import EvmDispatch.Machine.Memory
import EvmDispatch.Machine.Stack
import EvmDispatch.Revision

/-!
# The state of the machine

The machine runs one frame. What the frame fixes is kept apart from what the instructions change.
An instruction is an `Action`: it changes the state and may fail, and what it has changed before it
fails stays changed.
-/

namespace EvmDispatch

/-- What stays the same while a frame runs. -/
structure Frame where
  /-- The rules in force. -/
  revision : Revision
  /-- The code. -/
  code : Array UInt8
  /-- For each byte of the code whether it may be jumped to. -/
  jumpTargets : Array Bool
  /-- The call data. -/
  input : Bytes
  /-- The account that calls. -/
  caller : Address
  /-- The account whose code runs. -/
  callee : Address
  /-- Whether the frame must not change the state. -/
  isStatic : Bool

/-- The opcode at an offset. Behind its end, code goes on with the instruction that stops. -/
def Frame.opcodeAt (f : Frame) (offset : Nat) : UInt8 := f.code.getD offset 0

/-- The words stored by a frame. A key that is not in the table stands for zero. -/
structure Storage where
  /-- The words other than zero, by their keys. -/
  slots : Std.HashMap Word Word := ∅

namespace Storage

/-- The word under a key. -/
def load (s : Storage) (key : Word) : Word := s.slots.getD key .zero

/-- Puts a word under a key. -/
def store (s : Storage) (key value : Word) : Storage :=
  if value.isZero then ⟨s.slots.erase key⟩ else ⟨s.slots.insert key value⟩

end Storage

/-- What the instructions change. -/
structure Machine where
  /-- The operands. -/
  stack : Stack
  /-- The memory. -/
  memory : Memory := {}
  /-- The storage. -/
  storage : Storage := {}
  /-- The gas left. -/
  gas : Int

/-- A change of the state that may fail. -/
abbrev Action := EStateM Status Machine

/-- Where the execution goes on. -/
inductive Control where
  /-- At the next instruction. -/
  | next
  /-- At a jump destination. -/
  | jump (target : Nat)
  /-- Nowhere: it is complete, or asks to be undone. The output is a range of the memory. -/
  | finish (reverts : Bool) (offset size : Nat)

namespace Machine

/-- Fails if a result is an error. -/
def require {α : Type} : Except Status α → Action α
  | .ok a => pure a
  | .error status => throw status

/-- Pays for something. Nothing can be bought on credit, not even what is free. -/
def charge (amount : Nat) : Action Unit := do
  let m ← get
  if (amount : Int) ≤ m.gas then set { m with gas := m.gas - amount } else throw .outOfGas

/-- Takes the topmost operand. -/
def pop : Action Word := do
  let (w, stack) ← require (← get).stack.pop
  modify fun m => { m with stack }
  return w

/-- Replaces the stack. -/
def updateStack (change : Stack → Except Status Stack) : Action Unit := do
  let stack ← require (change (← get).stack)
  modify fun m => { m with stack }

/-- Puts a word on the stack. -/
def push (w : Word) : Action Unit := updateStack fun s => s.push w

/-- Pays for an access to the memory and makes it possible; gives its offset as a number. -/
def grow (offset : Word) (size : Nat) : Action Nat := do
  match offset.index? with
  | some start =>
    charge (← require ((← get).memory.expansionPrice start size))
    let memory ← require ((← get).memory.expand start size)
    modify fun m => { m with memory }
    return start
  | none => throw .outOfGas

/-- Pays for an access to a range of the memory. An empty range is nowhere. -/
def growRange (offset size : Word) : Action (Nat × Nat) := do
  match size.index? with
  | some 0 => return (0, 0)
  | some count => return (← grow offset count, count)
  | none => throw .outOfGas

/-- Fails unless the memory covers a range. -/
def requireCovered (offset size : Nat) : Action Unit := do
  unless (← get).memory.covers offset size do throw .invalidMemoryAccess

/-- Reads a range of the memory. -/
def readMemory (offset size : Nat) : Action Bytes := do
  requireCovered offset size
  return (← get).memory.slice offset size

/-- Writes to the memory. -/
def writeMemory (offset : Nat) (bytes : Bytes) : Action Unit := do
  requireCovered offset bytes.length
  modify fun m => { m with memory := m.memory.write offset bytes }

end Machine

end EvmDispatch
