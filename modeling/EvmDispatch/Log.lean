import EvmDispatch.Backend.Plugin

/-!
# The log

Everything that happens to an instance, every notice to the user and every line of a trace goes into
one log, in the order in which it happens. An instance is identified by the constructor that made it
and by how often that constructor had been called before; the log itself knows how often.
-/

namespace EvmDispatch

/-- What identifies a constructor. -/
inductive Origin where
  /-- The constructor of a backend of this library. -/
  | builtin (name : String)
  /-- The constructor that a library exports under a symbol. -/
  | exported (path symbol : String)
  /-- A constructor that a caller has supplied. -/
  | supplied (number : Nat)
deriving DecidableEq, Repr

/-- An instance, or the attempt to make one. -/
structure InstanceId where
  /-- The constructor. -/
  origin : Origin
  /-- How often the constructor had been called before. -/
  serial : Nat
deriving DecidableEq, Repr

/-- How much a notice matters. -/
inductive Level where
  /-- Good to know. -/
  | info
  /-- Something was not done as asked. -/
  | warning
  /-- Something failed. -/
  | error
deriving DecidableEq, Repr

/-- The tag in front of a notice. -/
def Level.tag : Level → String
  | info => "[INFO ]"
  | warning => "[WARN ]"
  | error => "[ERROR]"

/-- One entry of the log. -/
inductive Event where
  /-- An instance was made. -/
  | created (id : InstanceId)
  /-- A constructor returned nothing that can be used. -/
  | refused (id : InstanceId) (reason : Plugin.AbiError)
  /-- An instance received an option. -/
  | configured (id : InstanceId) (name value : String)
  /-- An instance was called. -/
  | executed (id : InstanceId) (r : Revision) (message : Message) (observed : Bool)
  /-- An instance was released. -/
  | released (id : InstanceId)
  /-- The user was told something. -/
  | notice (level : Level) (text : String)
  /-- A line of a trace was written. -/
  | line (text : String)
deriving DecidableEq

/-- The instance whose constructor was called. -/
def Event.attempt? : Event → Option InstanceId
  | created id => some id
  | refused id _ => some id
  | _ => none

/-- The line of a trace. -/
def Event.line? : Event → Option String
  | line text => some text
  | _ => none

/-- The events so far, oldest first. -/
structure Log where
  /-- The events. -/
  events : Array Event := #[]

namespace Log

/-- Adds an event. -/
def add (log : Log) (e : Event) : Log := ⟨log.events.push e⟩

/-- Adds events, oldest first. -/
def addAll (log : Log) (events : List Event) : Log := events.foldl add log

/-- How often a constructor has been called. -/
def attempts (log : Log) (origin : Origin) : Nat :=
  log.events.foldl (fun n e => if e.attempt?.any (·.origin == origin) then n + 1 else n) 0

/-- The identity of the next instance of a constructor. -/
def nextId (log : Log) (origin : Origin) : InstanceId := ⟨origin, log.attempts origin⟩

/-- The events behind the first `count` ones. -/
def since (log : Log) (count : Nat) : List Event := (log.events.extract count).toList

end Log

end EvmDispatch
