import EvmDispatch.Backend.Raw
import EvmDispatch.Text.Quoted

/-!
# The plugin boundary

A backend in a library of its own is reached through a table of functions. The table speaks of
revisions and of answers to options by numbers and of calls, steps and results by records of their
own, and texts end at their first null character. An output stays in a buffer of the instance, and
an answer only points to it. Steps go to the observer for which a tracer is installed: before a call
that is observed the host installs one, and afterwards it takes it away again.

`Table.ofBackend` puts a backend behind a table, and `adopt` makes a backend of a table.
-/

namespace EvmDispatch.Plugin

/-- The version of the boundary. -/
def abiVersion : Nat := 1

/-- What identifies an observer to a tracer. -/
abbrev Context := Nat

/-- The table of functions of an instance. -/
structure Table where
  /-- What the instance keeps between calls. -/
  State : Type
  /-- The state of a new instance. -/
  start : State
  /-- The version of the boundary that the table was made for. -/
  abiVersion : Nat
  /-- The name, if there is a pointer to one. -/
  name : Option String
  /-- The version, if there is a pointer to one. -/
  version : Option String
  /-- Sets an option and answers by number. -/
  setOption : State → String → String → Int × State
  /-- Installs a tracer for an observer, or takes it away. -/
  setTracer : State → Option Context → State
  /-- Answers a call under the revision of a number, and tells observers of steps on the way. -/
  execute : State → Int → RawMessage → RawResult × List (Context × RawStep) × State
  /-- The bytes behind the pointers to outputs. -/
  buffer : State → Bytes

/-- Why an instance could not be adopted. -/
inductive AbiError where
  /-- There is no instance. -/
  | nullInstance
  /-- The table was made for another version of the boundary. -/
  | versionMismatch (found : Nat)
deriving DecidableEq, Repr

/-- The message that a user sees. -/
def AbiError.message : AbiError → String
  | nullInstance => "backend constructor returned a null instance"
  | versionMismatch found =>
    s!"backend ABI version mismatch: expected {Plugin.abiVersion}, found {found}"

/-- The text, or nothing if it cannot cross the boundary. -/
def carried (text : String) : String := if isCarried text then text else ""

/-! ## The side of the library -/

/-- The answer to a revision that the library does not know. It lets the host go on without the
library. -/
def RawResult.unknownRevision : RawResult where
  status := Status.rejected.raw
  gasLeft := 0
  outputData := .null
  outputSize := 0

/-- A backend behind a table, with what the table keeps for it. -/
structure Exported (b : Backend) where
  /-- The state of the backend. -/
  state : b.State
  /-- The observer for which a tracer is installed. -/
  tracer : Option Context
  /-- The buffer for outputs. -/
  buffer : Bytes

/-- Calls a backend through its table. The backend is observed if a tracer is installed, and its
output is copied into the buffer. -/
def Exported.execute {b : Backend} (e : Exported b) (revision : Int) (message : RawMessage) :
    RawResult × List (Context × RawStep) × Exported b :=
  match Revision.ofRaw? revision with
  | some r =>
    let (reply, state) := b.execute e.state r message.toMessage e.tracer.isSome
    let told := match e.tracer with
      | some c => reply.steps.map fun step => (c, RawStep.ofStep step)
      | none => []
    let e := { e with state, buffer := reply.output }
    ({ status := reply.status.raw, gasLeft := reply.gasLeft, outputData := .valid ()
       outputSize := e.buffer.length },
      told, e)
  | none => (.unknownRevision, [], e)

/-- The table of a backend. -/
def Table.ofBackend (b : Backend) : Table where
  State := Exported b
  start := { state := b.start, tracer := none, buffer := [] }
  abiVersion := Plugin.abiVersion
  name := some (carried b.name)
  version := some (carried b.version)
  setOption := fun e name value =>
    let (answer, state) := b.setOption e.state name value
    (answer.raw, { e with state })
  setTracer := fun e tracer => { e with tracer }
  execute := Exported.execute
  buffer := Exported.buffer

/-! ## The side of the host -/

/-- The output to which an answer points. -/
def Table.output (t : Table) (s : t.State) (raw : RawResult) : RawSlice where
  data := raw.outputData.map fun _ => t.buffer s
  size := raw.outputSize

/-- Sets an option through a table. A name or a value that cannot cross the boundary never gets to
the instance. -/
def Table.askOption (t : Table) (s : t.State) (name value : String) : OptionAnswer × t.State :=
  if !isCarried name then (.invalidName, s)
  else if !isCarried value then (.invalidValue, s)
  else
    let (code, s) := t.setOption s name value
    (.ofRaw code, s)

/-- Makes a call through a table for an observer, if there is one, and tells who has been told of
which steps. A tracer is installed for as long as the call lasts. The output is read last, when the
tracer has been taken away. -/
def Table.callFor (t : Table) (s : t.State) (r : Revision) (message : Message)
    (observer : Option Context) : Reply × List (Context × Step) × t.State :=
  let (raw, told, s) := match observer with
    | some c =>
      let (raw, told, s) := t.execute (t.setTracer s (some c)) r.raw (.ofMessage message)
      (raw, told, t.setTracer s none)
    | none => t.execute s r.raw (.ofMessage message)
  let told := told.map fun (c, raw) => (c, raw.toStep)
  let reply : Reply :=
    { status := .ofRaw raw.status
      gasLeft := raw.gasLeft
      output := (t.output s raw).bytes
      steps := told.map (·.2) }
  (reply, told, s)

/-- The observer of the calls that a backend behind a table gets. -/
def hostContext : Context := 0

/-- Makes a call through a table. -/
def Table.call (t : Table) (s : t.State) (r : Revision) (message : Message) (observed : Bool) :
    Reply × t.State :=
  let (reply, _, s) := t.callFor s r message (if observed then some hostContext else none)
  (reply, s)

/-- The backend behind a table of the right version. -/
def Table.backend (t : Table) : Backend where
  State := t.State
  start := t.start
  name := t.name.getD ""
  version := t.version.getD ""
  setOption := t.askOption
  execute := t.call
  foreign := true

/-- The form of an adopted backend that a developer sees. -/
def debugText (b : Backend) : String :=
  "ForeignBackend \x7b name: " ++ Text.quoted b.name ++ ", version: " ++ Text.quoted b.version ++
    ", .. \x7d"

/-- Makes a backend of what a constructor has returned. Of a table for another version nothing but
that version is looked at. -/
def adopt : Option Table → Except AbiError Backend
  | none => .error .nullInstance
  | some t =>
    if t.abiVersion = Plugin.abiVersion then .ok t.backend
    else .error (.versionMismatch t.abiVersion)

end EvmDispatch.Plugin
