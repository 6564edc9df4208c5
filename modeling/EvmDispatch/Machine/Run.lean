import EvmDispatch.Call
import EvmDispatch.Machine.Frugal
import EvmDispatch.Machine.Settings
import EvmDispatch.Report

/-!
# Running a frame

A run executes instructions until one ends it. Every instruction after which the run goes on costs
gas, so the gas at the start bounds the number of steps, whatever loops the code has. The steps are
collected only if somebody observes the run.
-/

namespace EvmDispatch

/-- Whether the instruction leaves a word on the stack that steps tell. -/
def Instruction.pushesValue : Instruction → Bool
  | binary _ => true
  | unary _ => true
  | query _ => true
  | callDataLoad => true
  | memoryLoad => true
  | storageLoad => true
  | push _ => true
  | dup _ => true
  | _ => false

/-- How an instruction that did not fail has ended. -/
def Control.status : Control → Status
  | finish reverts _ _ => if reverts then .revert else .success
  | _ => .success

namespace Frame

/-- The frame of a message. -/
def ofMessage (r : Revision) (message : Message) (jumpTargets : List Bool) : Frame where
  revision := r
  code := message.code.toArray
  jumpTargets := jumpTargets.toArray
  input := message.input
  caller := message.caller
  callee := message.callee
  isStatic := message.isStatic

/-- The word that a step tells after an instruction that did not fail. -/
def pushed? (f : Frame) (settings : Settings) (offset : Nat) (m : Machine) : Option Word :=
  match Instruction.ofByte? (f.opcodeAt offset) with
  | some i => if settings.tracePushed && i.pushesValue then m.stack.top? else none
  | none => none

/-- The step of the instruction at an offset. -/
def step (f : Frame) (settings : Settings) (index : UInt32) (offset : Nat) :
    EStateM.Result Status Machine Control → Step
  | .ok control m =>
    { index, codeOffset := offset, opcode := f.opcodeAt offset, status := control.status
      gasLeft := m.gas, stackDepth := m.stack.depth, pushed := f.pushed? settings offset m
      memorySize := m.memory.size }
  | .error status m =>
    { index, codeOffset := offset, opcode := f.opcodeAt offset, status
      gasLeft := m.gas, stackDepth := m.stack.depth, pushed := none
      memorySize := m.memory.size }

/-- The steps so far and the one of the instruction at an offset, if the run is observed. -/
def record (f : Frame) (settings : Settings) (observed : Bool) (steps : Array Step)
    (index : UInt32) (offset : Nat) (result : EStateM.Result Status Machine Control) :
    Array Step :=
  if observed then steps.push (f.step settings index offset result) else steps

/-- Runs a frame from an offset on. A failure uses up all gas and has no output. -/
def runFrom (f : Frame) (settings : Settings) (observed : Bool) (steps : Array Step)
    (index : UInt32) (offset : Nat) (m : Machine) : Reply :=
  match h : f.executeAt offset m with
  | .ok .next m' =>
    f.runFrom settings observed (f.record settings observed steps index offset (.ok .next m'))
      (index + 1) (offset + 1 + Instruction.immediateSize (f.opcodeAt offset)) m'
  | .ok (.jump target) m' =>
    f.runFrom settings observed
      (f.record settings observed steps index offset (.ok (.jump target) m')) (index + 1) target m'
  | .ok (.finish reverts start size) m' =>
    { status := (Control.finish reverts start size).status
      gasLeft := m'.gas
      output := m'.memory.slice start size
      steps := (f.record settings observed steps index offset
        (.ok (.finish reverts start size) m')).toList }
  | .error status m' =>
    { status
      steps := (f.record settings observed steps index offset (.error status m')).toList }
termination_by m.gas.toNat
decreasing_by
  · have := Machine.executeAt_gas_lt h nofun
    omega
  · have := Machine.executeAt_gas_lt h nofun
    omega

/-- Runs a frame from its start. -/
def run (f : Frame) (settings : Settings) (gas : Int) (observed : Bool) : Reply :=
  f.runFrom settings observed #[] 0 0 { stack := { limit := settings.stackLimit }, gas }

end Frame

end EvmDispatch
