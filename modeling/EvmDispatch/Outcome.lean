import EvmDispatch.Json.Basic
import EvmDispatch.Status
import EvmDispatch.Text.Hex

/-!
# Outcomes

What a caller learns of a call. Success and reverting keep the output and the remaining gas; every
failure uses up all gas and has no output. A status that is neither is reported as an internal
error together with its number.
-/

namespace EvmDispatch

/-- Why a call failed. -/
inductive Failure where
  /-- The gas did not suffice, or the engine gave no reason. -/
  | outOfGas
  /-- An instruction was met that the revision does not define. -/
  | invalidInstruction
  /-- A jump went to an offset that is no jump destination. -/
  | invalidJumpTarget
  /-- The stack would have grown over its limit. -/
  | stackOverflow
  /-- The stack held too few items. -/
  | stackUnderflow
  /-- A call that must not change the state tried to. -/
  | staticStateViolation
  /-- The engine reported a status that stands for none of the above. -/
  | internalError (code : Int)
deriving DecidableEq, Repr

namespace Failure

/-- The message that a user sees. -/
def message : Failure → String
  | outOfGas => "out of gas"
  | invalidInstruction => "invalid instruction"
  | invalidJumpTarget => "invalid jump destination"
  | stackOverflow => "stack overflow"
  | stackUnderflow => "stack underflow"
  | staticStateViolation => "state modification in static context"
  | internalError code => s!"internal VM error (status code {code})"

/-- Whether the caller may treat the failure as one of the called code. -/
def isRecoverable : Failure → Bool
  | internalError _ => false
  | _ => true

/-- The name of the failure in results. -/
def kind : Failure → String
  | outOfGas => "out_of_gas"
  | invalidInstruction => "invalid_instruction"
  | invalidJumpTarget => "invalid_jump_target"
  | stackOverflow => "stack_overflow"
  | stackUnderflow => "stack_underflow"
  | staticStateViolation => "static_state_violation"
  | internalError _ => "internal_error"

/-- A failure in results. -/
def toJson : Failure → Json
  | internalError code => Json.ofMembers [("kind", .text "internal_error"), ("code", .integer code)]
  | f => Json.ofMembers [("kind", .text f.kind)]

end Failure

/-- What a caller learns of a call. -/
inductive Outcome where
  /-- The call completed. -/
  | success (output : Bytes) (gasLeft : Nat)
  /-- The call asked to be undone. -/
  | reverted (output : Bytes) (gasLeft : Nat)
  /-- The call failed. -/
  | failure (cause : Failure)
deriving DecidableEq, Repr

namespace Outcome

/-- Whether the call completed. -/
def isSuccess : Outcome → Bool
  | success _ _ => true
  | _ => false

/-- The output, which is empty after a failure. -/
def output : Outcome → Bytes
  | success output _ => output
  | reverted output _ => output
  | failure _ => []

/-- The remaining gas, of which a failure leaves none. -/
def gasLeft : Outcome → Nat
  | success _ gasLeft => gasLeft
  | reverted _ gasLeft => gasLeft
  | failure _ => 0

/-- The cause of a failure. -/
def failure? : Outcome → Option Failure
  | failure cause => some cause
  | _ => none

/-- The name of the outcome in results. -/
def label : Outcome → String
  | success _ _ => "success"
  | reverted _ _ => "reverted"
  | failure _ => "failure"

/-- An outcome in results. -/
def toJson : Outcome → Json
  | failure cause => Json.ofMembers [("outcome", .text "failure"), ("failure", cause.toJson)]
  | o => Json.ofMembers
    [("outcome", .text o.label),
      ("output", .array (o.output.map fun b => .ofNat b.toNat)),
      ("gas_left", .ofNat o.gasLeft)]

/-- The outcome that an engine's answer stands for. An engine that declines the call gives none, so
that the call can be made elsewhere. Negative gas counts as none. -/
def ofAnswer? (status : Status) (gasLeft : Int) (output : Bytes) : Option Outcome :=
  match status with
  | .success => some (success output gasLeft.toNat)
  | .revert => some (reverted output gasLeft.toNat)
  | .outOfGas => some (failure .outOfGas)
  | .failure => some (failure .outOfGas)
  | .undefinedInstruction => some (failure .invalidInstruction)
  | .badJumpDestination => some (failure .invalidJumpTarget)
  | .stackOverflow => some (failure .stackOverflow)
  | .stackUnderflow => some (failure .stackUnderflow)
  | .staticModeViolation => some (failure .staticStateViolation)
  | .rejected => none
  | other => some (failure (.internalError other.raw))

end Outcome

end EvmDispatch
