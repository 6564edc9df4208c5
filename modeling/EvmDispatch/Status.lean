import EvmDispatch.Json.Fields

/-!
# Status codes

An engine reports how an execution ended by a number. The numbers are part of the plugin boundary;
one that this program does not know is kept, so that it can be reported.
-/

namespace EvmDispatch

/-- How an execution, or one instruction, ended. -/
inductive Status where
  /-- It completed. -/
  | success
  /-- It failed for no reason that the engine tells. -/
  | failure
  /-- It asked to be undone, with output. -/
  | revert
  /-- The gas did not suffice. -/
  | outOfGas
  /-- The designated invalid instruction was met. -/
  | invalidInstruction
  /-- An instruction was met that the revision does not define. -/
  | undefinedInstruction
  /-- The stack would have grown over its limit. -/
  | stackOverflow
  /-- The stack held too few items. -/
  | stackUnderflow
  /-- A jump went to an offset that is no jump destination. -/
  | badJumpDestination
  /-- Memory was accessed outside its bounds. -/
  | invalidMemoryAccess
  /-- Calls were nested too deeply. -/
  | callDepthExceeded
  /-- A frame that must not change the state tried to. -/
  | staticModeViolation
  /-- The engine itself failed. -/
  | internalError
  /-- The engine declines the execution. -/
  | rejected
  /-- A number that has no meaning here. -/
  | other (code : Int)
deriving DecidableEq, Repr

namespace Status

/-- The number of a status. -/
def raw : Status → Int
  | success => 0
  | failure => 1
  | revert => 2
  | outOfGas => 3
  | invalidInstruction => 4
  | undefinedInstruction => 5
  | stackOverflow => 6
  | stackUnderflow => 7
  | badJumpDestination => 8
  | invalidMemoryAccess => 9
  | callDepthExceeded => 10
  | staticModeViolation => 11
  | internalError => -1
  | rejected => -2
  | other code => code

/-- The statuses with a name, each with its name in configurations and results. -/
def named : List (String × Status) :=
  [("success", success), ("failure", failure), ("revert", revert), ("out_of_gas", outOfGas),
    ("invalid_instruction", invalidInstruction), ("undefined_instruction", undefinedInstruction),
    ("stack_overflow", stackOverflow), ("stack_underflow", stackUnderflow),
    ("bad_jump_destination", badJumpDestination), ("invalid_memory_access", invalidMemoryAccess),
    ("call_depth_exceeded", callDepthExceeded), ("static_mode_violation", staticModeViolation),
    ("internal_error", internalError), ("rejected", rejected)]

/-- The status of a number. -/
def ofRaw (code : Int) : Status :=
  ((named.find? fun s => s.2.raw == code).map (·.2)).getD (other code)

/-- A status as an engine can report it over the plugin boundary: no other status has its number
and a name. -/
def Canonical (s : Status) : Prop := ofRaw s.raw = s

instance (s : Status) : Decidable s.Canonical := inferInstanceAs (Decidable (ofRaw s.raw = s))

/-- A status in results. -/
def toJson : Status → Json
  | other code => Json.ofMembers [("other", .integer code)]
  | s => .text (((named.find? fun n => n.2 == s).map (·.1)).getD "")

/-- A status in a configuration. -/
def ofJson? : Json → Option Status
  | .object [(some "other", code)] => (Json.integer? .signed32 code).map other
  | value => do
    let name ← Json.alternative? value
    (named.find? fun s => s.1 == name).map (·.2)

end Status

/-- What an engine answers to an option. -/
inductive OptionAnswer where
  /-- The option is set. -/
  | accepted
  /-- There is no option of that name. -/
  | invalidName
  /-- The option does not take that value. -/
  | invalidValue
deriving DecidableEq, Repr

namespace OptionAnswer

/-- The number of an answer at the plugin boundary. -/
def raw : OptionAnswer → Int
  | accepted => 0
  | invalidName => 1
  | invalidValue => 2

/-- The answer of a number. A number without meaning counts as an unknown name. -/
def ofRaw (code : Int) : OptionAnswer :=
  if code = 0 then accepted else if code = 2 then invalidValue else invalidName

end OptionAnswer

end EvmDispatch
