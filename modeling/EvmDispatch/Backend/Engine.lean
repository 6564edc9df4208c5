import EvmDispatch.Backend.Basic
import EvmDispatch.Machine.Run

/-!
# Engines around the machine

The backends of this library run the same machine and differ in the table of jump destinations that
they give it. An instance keeps its settings and a buffer. A run empties the buffer and leaves its
output there, and an answer lends the buffer out.
-/

namespace EvmDispatch

/-- What an instance around the machine keeps between calls. -/
structure Engine where
  /-- The settings of the machine. -/
  settings : Settings := {}
  /-- The buffer for outputs. -/
  buffer : Bytes := []
deriving DecidableEq, Repr

namespace Engine

/-- Sets an option. -/
def set (e : Engine) (name value : String) : OptionAnswer × Engine :=
  let (answer, settings) := e.settings.set name value
  (answer, { e with settings })

/-- Runs a message under a table of jump destinations. -/
def run (e : Engine) (r : Revision) (message : Message) (jumpTargets : List Bool)
    (observed : Bool) : Reply × Engine :=
  let reply := (Frame.ofMessage r message jumpTargets).run e.settings message.gas observed
  let e := { e with buffer := reply.output }
  ({ reply with output := e.buffer }, e)

end Engine

end EvmDispatch
