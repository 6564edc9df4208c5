import EvmDispatch.Backend.Basic
import EvmDispatch.Text.Numeral

/-!
# The backend that returns its code

A backend small enough to try out the loading of backends: its output is the code, and it charges
for each byte of it. The charge is computed in signed integers of 64 bits and stays at the largest
one when it would exceed it.
-/

namespace EvmDispatch.Echo

/-- The name of the backend. -/
def name : String := "echo"

/-- What an instance keeps between calls. -/
structure Engine where
  /-- The price of a byte. -/
  byteCost : Nat := 1
  /-- The buffer from which the output of an answer is lent out. -/
  buffer : Bytes := []
deriving DecidableEq, Repr

/-- The prices that may be asked for. -/
def byteCost? (value : String) : Option Nat :=
  ((Text.signed64? value).filter (0 ≤ ·)).map Int.toNat

/-- Sets the price of a byte. -/
def setOption (e : Engine) (name value : String) : OptionAnswer × Engine :=
  if name == "byte-cost" then
    match byteCost? value with
    | some byteCost => (.accepted, { e with byteCost })
    | none => (.invalidValue, e)
  else (.invalidName, e)

/-- What the code costs. -/
def cost (e : Engine) (code : Bytes) : Nat := min (code.length * e.byteCost) maxSigned64

/-- Answers with the code. A call that cannot be paid leaves the buffer as it is. -/
def execute (e : Engine) (message : Message) : Reply × Engine :=
  if message.gas < cost e message.code then ({ status := .outOfGas }, e)
  else
    let e := { e with buffer := message.code }
    ({ status := .success, gasLeft := message.gas - cost e message.code, output := e.buffer }, e)

/-- The backend. -/
def backend : Backend where
  State := Engine
  start := {}
  name := name
  version := Backend.builtinVersion
  setOption := setOption
  execute := fun e _ message _ => execute e message

end EvmDispatch.Echo
