import EvmDispatch.Backend.Basic

/-!
# Values at the plugin boundary

A call, a step and an answer cross the plugin boundary as records of their own. Statuses are numbers
there, an address is an array of twenty bytes, and what has no fixed size lies behind a pointer: a
sequence of bytes is given by a pointer to its first byte and a length, and the word that a step has
put on the stack by a pointer that is null if there is none. Each record is put together on one side
and taken apart on the other, and neither a call nor a step changes by that
(`RawMessage.toMessage_ofMessage`, `RawStep.toStep_ofStep`).
-/

namespace EvmDispatch.Plugin

/-! ## Pointers -/

/-- A pointer, and what is found behind it unless it is null. -/
inductive Pointer (α : Type) where
  | null
  | valid (target : α)
deriving DecidableEq, Repr

namespace Pointer

variable {α β : Type}

/-- A pointer to something that may be missing. -/
def ofOption : Option α → Pointer α
  | some target => valid target
  | none => null

/-- What a pointer leads to. -/
def target? : Pointer α → Option α
  | valid target => some target
  | null => none

/-- The pointer to what is made of its target. -/
def map (f : α → β) : Pointer α → Pointer β
  | valid target => valid (f target)
  | null => null

@[simp] theorem target?_ofOption (a : Option α) : (ofOption a).target? = a := by
  cases a <;> rfl

@[simp] theorem ofOption_target? (p : Pointer α) : ofOption p.target? = p := by
  cases p <;> rfl

end Pointer

/-- A sequence of bytes behind a pointer. -/
structure RawSlice where
  /-- The bytes that can be read from the pointer on. -/
  data : Pointer Bytes
  /-- How many of them belong to the sequence. -/
  size : Nat
deriving DecidableEq, Repr

namespace RawSlice

/-- A sequence of bytes as it crosses the boundary. Even an empty one has a pointer. -/
def ofBytes (bytes : Bytes) : RawSlice where
  data := .valid bytes
  size := bytes.length

/-- The bytes of a sequence. A null pointer stands for the empty one, whatever the length says, and
behind a pointer nothing is read if the length is zero. -/
def bytes (s : RawSlice) : Bytes :=
  match s.data with
  | .null => []
  | .valid found => if s.size = 0 then [] else found.take s.size

/-- The bytes of a sequence, unless its pointer is null. -/
def bytes? (s : RawSlice) : Option Bytes := s.data.target?.map fun _ => s.bytes

@[simp] theorem bytes_ofBytes (bytes : Bytes) : (ofBytes bytes).bytes = bytes := by
  cases bytes with
  | nil => rfl
  | cons b rest => exact List.take_length

end RawSlice

/-! ## Calls -/

/-- A call as it crosses the boundary. -/
structure RawMessage where
  /-- The number of calls around this one. -/
  depth : Int
  /-- The gas of the call. -/
  gas : Int
  /-- Whether the call must not change the state. -/
  isStatic : Bool
  /-- The account that calls. -/
  caller : Vector UInt8 20
  /-- The account whose code runs. -/
  callee : Vector UInt8 20
  /-- The code. -/
  code : RawSlice
  /-- The call data. -/
  input : RawSlice
deriving DecidableEq

/-- The twenty bytes of an address. -/
def addressBytes (a : Address) : Vector UInt8 20 := ⟨a.bytes.toArray, a.length_eq⟩

/-- The address of twenty bytes. -/
def addressOfBytes (bytes : Vector UInt8 20) : Address := ⟨bytes.toList, bytes.length_toList⟩

@[simp] theorem addressOfBytes_addressBytes (a : Address) : addressOfBytes (addressBytes a) = a :=
  rfl

namespace RawMessage

/-- The call as it crosses the boundary. -/
def ofMessage (message : Message) : RawMessage where
  depth := message.depth
  gas := message.gas
  isStatic := message.isStatic
  caller := addressBytes message.caller
  callee := addressBytes message.callee
  code := .ofBytes message.code
  input := .ofBytes message.input

/-- The call behind what has crossed the boundary. -/
def toMessage (raw : RawMessage) : Message where
  depth := raw.depth
  gas := raw.gas
  caller := addressOfBytes raw.caller
  callee := addressOfBytes raw.callee
  code := raw.code.bytes
  input := raw.input.bytes
  isStatic := raw.isStatic

/-- A call reaches the other side as it was made. -/
@[simp] theorem toMessage_ofMessage (message : Message) :
    (ofMessage message).toMessage = message := by
  simp only [toMessage, ofMessage, addressOfBytes_addressBytes, RawSlice.bytes_ofBytes]

end RawMessage

/-! ## Steps -/

/-- A step as it crosses the boundary. -/
structure RawStep where
  /-- The number of steps before it. -/
  index : UInt32
  /-- The offset of the opcode. -/
  codeOffset : Nat
  /-- The opcode. -/
  opcode : UInt8
  /-- The number of the status. -/
  status : Int
  /-- The gas after it. -/
  gasLeft : Int
  /-- The height of the stack after it. -/
  stackDepth : Nat
  /-- The word that it has put on the stack, or a null pointer. -/
  pushed : Pointer Word
  /-- The size of the memory after it. -/
  memorySize : Nat
deriving DecidableEq, Repr

namespace RawStep

/-- The step as it crosses the boundary. -/
def ofStep (step : Step) : RawStep where
  index := step.index
  codeOffset := step.codeOffset
  opcode := step.opcode
  status := step.status.raw
  gasLeft := step.gasLeft
  stackDepth := step.stackDepth
  pushed := .ofOption step.pushed
  memorySize := step.memorySize

/-- The step behind what has crossed the boundary. -/
def toStep (raw : RawStep) : Step where
  index := raw.index
  codeOffset := raw.codeOffset
  opcode := raw.opcode
  status := .ofRaw raw.status
  gasLeft := raw.gasLeft
  stackDepth := raw.stackDepth
  pushed := raw.pushed.target?
  memorySize := raw.memorySize

/-- A step reaches the other side as it was reported, if its status survives as a number. -/
theorem toStep_ofStep {step : Step} (h : step.status.Canonical) : (ofStep step).toStep = step := by
  have hstatus : Status.ofRaw step.status.raw = step.status := h
  simp only [toStep, ofStep, hstatus, Pointer.target?_ofOption]

end RawStep

/-! ## Answers -/

/-- An answer as it crosses the boundary. The output stays with the instance. -/
structure RawResult where
  /-- The number of the status. -/
  status : Int
  /-- The gas that is left. -/
  gasLeft : Int
  /-- The pointer to the output, which is that to the buffer of the instance or null. -/
  outputData : Pointer Unit
  /-- The length of the output. -/
  outputSize : Nat
deriving DecidableEq, Repr

end EvmDispatch.Plugin
