import EvmDispatch.Machine.Instruction

/-!
# Prices

Every instruction has a price that is charged before it runs. Instructions that grow the memory,
store a word or write a log entry charge for that on top, when they know how much it is. The price
of an opcode does not depend on whether the revision defines it; the revision decides only about
the price of reading the storage.
-/

namespace EvmDispatch

/-- The price of an instruction with two operands. -/
def BinaryInstruction.price : BinaryInstruction → Nat
  | mul => 5
  | _ => 3

namespace Instruction

/-- The price that is charged before the instruction runs. Instructions that end the execution are
free, and so are those that the machine does not carry out. -/
def price (r : Revision) : Instruction → Nat
  | binary op => op.price
  | unary _ => 3
  | query _ => 2
  | callDataLoad => 3
  | pop => 2
  | memoryLoad => 3
  | memoryStore => 3
  | memoryStoreByte => 3
  | storageLoad => if Revision.tangerineWhistle ≤ r then 200 else 50
  | jump => 8
  | jumpIf => 10
  | jumpDestination => 1
  | push _ => 3
  | dup _ => 3
  | swap _ => 3
  | log topics => 375 + 375 * topics
  | _ => 0

/-- The price of an opcode. -/
def priceOfByte (r : Revision) (opcode : UInt8) : Nat :=
  match ofByte? opcode with
  | some i => i.price r
  | none => 0

theorem priceOfByte_of_ofByte? {r : Revision} {opcode : UInt8} {i : Instruction}
    (h : ofByte? opcode = some i) : priceOfByte r opcode = i.price r := by
  rw [priceOfByte, h]

end Instruction

/-- The price of a stored word: it is dearer to fill an empty slot. -/
def storePrice (fills : Bool) : Nat := if fills then 20000 else 5000

/-- The price of the data of a log entry. -/
def logDataPrice (size : Nat) : Nat := 8 * size

end EvmDispatch
