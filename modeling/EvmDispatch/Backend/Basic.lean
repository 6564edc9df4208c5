import EvmDispatch.Call
import EvmDispatch.Report

/-!
# Backends

A backend is an execution engine: it names itself, takes options, and answers calls. What it keeps
from one call to the next is its own business, so its state has a type of its own, and a backend
brings the state that a new instance starts with.
-/

namespace EvmDispatch

/-- Whether a text can cross the boundary between a host and a library as it is. -/
def Plugin.isCarried (text : String) : Bool := !text.toList.contains '\x00'

/-- An execution engine. -/
structure Backend where
  /-- What an instance keeps between calls. -/
  State : Type
  /-- The state of a new instance. -/
  start : State
  /-- The name that the engine gives itself. -/
  name : String
  /-- Its version. -/
  version : String
  /-- Sets an option. -/
  setOption : State → String → String → OptionAnswer × State
  /-- Answers a call, with the steps if it is observed. -/
  execute : State → Revision → Message → Bool → Reply × State
  /-- Whether the engine lies behind the boundary of a library. -/
  foreign : Bool := false

/-- Whether an option gets as far as the engine. What lies between it and the caller may be unable
to carry some texts. -/
def Backend.reaches (b : Backend) (name value : String) : Bool :=
  !b.foreign || (Plugin.isCarried name && Plugin.isCarried value)

/-- The version of the backends of this library. -/
def Backend.builtinVersion : String := "0.1.0"

end EvmDispatch
