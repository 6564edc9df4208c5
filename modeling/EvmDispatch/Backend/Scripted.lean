import EvmDispatch.Backend.Basic

/-!
# Backends that follow a script

A script fixes what a backend answers, whatever it is asked. Such a backend shows what its callers
make of an answer, also of one that no real engine gives.
-/

namespace EvmDispatch

/-- The answers of a backend. -/
structure Script where
  /-- The name that it gives itself. -/
  name : String := "scripted"
  /-- Its version. -/
  version : String := "0.0.1"
  /-- The answers to options, by their names. Other options are unknown. -/
  options : List (String × OptionAnswer) := []
  /-- The status of every call. -/
  status : Status := .success
  /-- The gas that is left by every call. If it is missing, none is used. -/
  gasLeft : Option Int := none
  /-- The output of every call. If it is missing, the call data is the output. -/
  output : Option Bytes := some []
  /-- The steps that are reported to whoever observes. -/
  steps : List Step := []

namespace Script

/-- The answer to an option. -/
def optionAnswer (s : Script) (name : String) : OptionAnswer :=
  ((s.options.find? (·.1 == name)).map (·.2)).getD .invalidName

/-- The answer to a call. -/
def reply (s : Script) (message : Message) (observed : Bool) : Reply where
  status := s.status
  gasLeft := s.gasLeft.getD message.gas
  output := s.output.getD message.input
  steps := if observed then s.steps else []

/-- The backend that follows the script. -/
def backend (s : Script) : Backend where
  State := Unit
  start := ()
  name := s.name
  version := s.version
  setOption := fun _ name _ => (s.optionAnswer name, ())
  execute := fun _ _ message observed => (s.reply message observed, ())

end Script

end EvmDispatch
