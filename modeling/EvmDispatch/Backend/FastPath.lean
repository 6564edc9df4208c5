import EvmDispatch.Backend.Engine
import EvmDispatch.Machine.Code

/-!
# The backend for code without jumps

Code without jumps needs no table of jump destinations. This backend takes only such code and
declines the rest. Otherwise it is the machine of the interpreter, under the same settings.
-/

namespace EvmDispatch.FastPath

/-- The name of the backend. -/
def name : String := "fastpath"

/-- Runs a message, or declines it. The buffer is not touched by a call that is declined, nor lent
out. -/
def execute (e : Engine) (r : Revision) (message : Message) (observed : Bool) : Reply × Engine :=
  if Code.isStraightLine message.code then e.run r message [] observed
  else ({ status := .rejected }, e)

/-- The backend. -/
def backend : Backend where
  State := Engine
  start := {}
  name := name
  version := Backend.builtinVersion
  setOption := Engine.set
  execute := execute

end EvmDispatch.FastPath
