import EvmDispatch.Address
import EvmDispatch.Revision

/-!
# Calls

A caller describes one call by a `CallContext` and an amount of gas. An engine sees the call as a
`Message`, whose integers are those of the plugin boundary: signed, of 64 bits for gas and of 32
bits for the depth. A call whose values do not fit is refused before any engine is asked. The
values are looked at in a fixed order, and the first that does not fit is reported.
-/

namespace EvmDispatch

/-- The block that a call belongs to. Number and time are signed so that a negative one can be told
from a large one. -/
structure BlockEnv where
  /-- The number of the block. -/
  number : Int := 0
  /-- The time of the block. -/
  timestamp : Int := 0
  /-- The most gas that the block may use. -/
  gasLimit : Nat := 0
deriving DecidableEq, Repr

/-- One call as a caller describes it. -/
structure CallContext where
  /-- The number of calls around this one. -/
  depth : Nat := 0
  /-- The account that calls. -/
  caller : Address := .zero
  /-- The account whose code runs. -/
  callee : Address := .zero
  /-- The code. -/
  code : Bytes := []
  /-- The call data. -/
  input : Bytes := []
  /-- The block. -/
  env : BlockEnv := {}
  /-- The features of the chain. -/
  schedule : FeatureSchedule := {}
  /-- Whether the call must not change the state. -/
  isStatic : Bool := false
deriving DecidableEq

/-- One call as an engine sees it. -/
structure Message where
  /-- The number of calls around this one. -/
  depth : Int := 0
  /-- The gas of the call. -/
  gas : Int := 0
  /-- The account that calls. -/
  caller : Address := .zero
  /-- The account whose code runs. -/
  callee : Address := .zero
  /-- The code. -/
  code : Bytes := []
  /-- The call data. -/
  input : Bytes := []
  /-- Whether the call must not change the state. -/
  isStatic : Bool := false
deriving DecidableEq

/-- The largest signed integer of 64 bits. -/
def maxSigned64 : Nat := 0x7fffffffffffffff

/-- The largest signed integer of 32 bits. -/
def maxSigned32 : Nat := 0x7fffffff

/-- Why a call was refused before any engine was asked. -/
inductive PreconditionError where
  /-- The gas is too large. -/
  | gasOutOfRange (gas : Nat)
  /-- The gas limit of the block is too large. -/
  | gasLimitOutOfRange (gasLimit : Nat)
  /-- The number of the block is negative. -/
  | negativeBlockNumber (number : Int)
  /-- The time of the block is negative. -/
  | negativeTimestamp (timestamp : Int)
  /-- The call depth is too large. -/
  | depthOutOfRange (depth : Nat)
deriving DecidableEq, Repr

/-- The message that a user sees. -/
def PreconditionError.message : PreconditionError → String
  | gasOutOfRange gas => s!"gas {gas} exceeds the maximum of {maxSigned64}"
  | gasLimitOutOfRange gasLimit =>
    s!"block gas limit {gasLimit} exceeds the maximum of {maxSigned64}"
  | negativeBlockNumber number => s!"block number {number} is negative"
  | negativeTimestamp timestamp => s!"timestamp {timestamp} is negative"
  | depthOutOfRange depth => s!"call depth {depth} exceeds the maximum of {maxSigned32}"

/-- The stable code of the error. -/
def PreconditionError.code : PreconditionError → String
  | gasOutOfRange _ => "EXEC_001"
  | gasLimitOutOfRange _ => "EXEC_002"
  | negativeBlockNumber _ => "EXEC_003"
  | negativeTimestamp _ => "EXEC_004"
  | depthOutOfRange _ => "EXEC_005"

/-- The kind of error, as it is reported with the code. -/
def PreconditionError.category (_ : PreconditionError) : String := "exec"

/-- The call as an engine sees it, or the first reason to refuse it. -/
def CallContext.message? (ctx : CallContext) (gas : Nat) : Except PreconditionError Message :=
  if maxSigned64 < gas then .error (.gasOutOfRange gas)
  else if maxSigned64 < ctx.env.gasLimit then .error (.gasLimitOutOfRange ctx.env.gasLimit)
  else if ctx.env.number < 0 then .error (.negativeBlockNumber ctx.env.number)
  else if ctx.env.timestamp < 0 then .error (.negativeTimestamp ctx.env.timestamp)
  else if maxSigned32 < ctx.depth then .error (.depthOutOfRange ctx.depth)
  else .ok
    { depth := ctx.depth
      gas := gas
      caller := ctx.caller
      callee := ctx.callee
      code := ctx.code
      input := ctx.input
      isStatic := ctx.isStatic }

namespace BlockEnv

/-- The names of the fields. -/
def fields : List String := ["number", "timestamp", "gas_limit"]

/-- A block in results. -/
def toJson (env : BlockEnv) : Json :=
  Json.ofMembers [("number", .integer env.number), ("timestamp", .integer env.timestamp),
    ("gas_limit", .ofNat env.gasLimit)]

/-- A block in a configuration. -/
def ofJson? (value : Json) : Option BlockEnv := do
  match ← Json.record? fields false value with
  | [number, timestamp, gasLimit] =>
    let number ← Json.field? 0 (Json.integer? .signed64) number
    let timestamp ← Json.field? 0 (Json.integer? .signed64) timestamp
    let gasLimit ← Json.field? 0 (Json.integer? .unsigned64) gasLimit
    some { number, timestamp, gasLimit := gasLimit.toNat }
  | _ => none

end BlockEnv

end EvmDispatch
