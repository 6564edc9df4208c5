import EvmDispatch.Machine.Stack
import EvmDispatch.Text.Numeral

/-!
# Settings of the machine

The two options that the machine has. A value that is not accepted changes nothing, and of several
accepted values the last one counts.
-/

namespace EvmDispatch

/-- The options of the machine. -/
structure Settings where
  /-- The greatest height of the stack. -/
  stackLimit : Nat := Stack.maxLimit
  /-- Whether steps tell the word that was put on the stack. -/
  tracePushed : Bool := true
deriving DecidableEq, Repr

namespace Settings

/-- The stack limits that may be asked for. -/
def stackLimit? (value : String) : Option Nat :=
  (Text.unsigned64? value).filter fun n => 1 ≤ n ∧ n ≤ Stack.maxLimit

/-- The truth value of a word. -/
def flag? (value : String) : Option Bool :=
  if value == "true" then some true else if value == "false" then some false else none

/-- Sets an option by its name. -/
def set (s : Settings) (name value : String) : OptionAnswer × Settings :=
  if name == "stack-limit" then
    match stackLimit? value with
    | some stackLimit => (.accepted, { s with stackLimit })
    | none => (.invalidValue, s)
  else if name == "trace-pushed" then
    match flag? value with
    | some tracePushed => (.accepted, { s with tracePushed })
    | none => (.invalidValue, s)
  else (.invalidName, s)

end Settings

end EvmDispatch
