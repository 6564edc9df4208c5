import EvmDispatch.Backend.Engine
import EvmDispatch.Machine.Code

/-!
# The reference interpreter

It takes every call, so it is what other backends fall back on.
-/

namespace EvmDispatch.Interpreter

/-- The name of the backend. -/
def name : String := "interpreter"

/-- Runs a message. -/
def execute (e : Engine) (r : Revision) (message : Message) (observed : Bool) : Reply × Engine :=
  e.run r message (Code.jumpTable message.code) observed

/-- The interpreter with settings to start from. -/
def backendWith (settings : Settings) : Backend where
  State := Engine
  start := { settings }
  name := name
  version := Backend.builtinVersion
  setOption := Engine.set
  execute := execute

/-- The interpreter. -/
def backend : Backend := backendWith {}

end EvmDispatch.Interpreter
