import EvmDispatch.Log

/-!
# Instances

An instance of a backend is made by a constructor, set up by options, called, and released. Each of
these goes into the log. An instance is a value, so nothing here can keep a released one from being
used: that nobody does is for those who hold instances to show.
-/

namespace EvmDispatch

/-- What makes instances of a backend. -/
structure Constructor where
  /-- What identifies the constructor in the log. -/
  origin : Origin
  /-- What its calls return, counted from zero. -/
  make : Nat → Except Plugin.AbiError Backend

/-- What a library exports to make instances of its backend. -/
structure PluginConstructor where
  /-- What identifies the constructor in the log. -/
  origin : Origin
  /-- What its calls return, counted from zero. -/
  make : Nat → Option Plugin.Table

/-- The constructor that always makes the same backend. -/
def Constructor.ofBackend (origin : Origin) (b : Backend) : Constructor where
  origin := origin
  make := fun _ => .ok b

/-- The constructor of a backend of this library. -/
def Constructor.builtin (b : Backend) : Constructor := .ofBackend (.builtin b.name) b

/-- The constructor that adopts what a library returns. -/
def Constructor.ofPlugin (p : PluginConstructor) : Constructor where
  origin := p.origin
  make := fun serial => Plugin.adopt (p.make serial)

/-- The plugin constructor that always exports the same backend. -/
def PluginConstructor.ofBackend (origin : Origin) (b : Backend) : PluginConstructor where
  origin := origin
  make := fun _ => some (.ofBackend b)

/-- An instance of a backend. -/
structure Instance where
  /-- The identity in the log. -/
  id : InstanceId
  /-- The backend. -/
  backend : Backend
  /-- The present state. -/
  state : backend.State

/-- Makes an instance. -/
def Constructor.instantiate (c : Constructor) (log : Log) :
    Except Plugin.AbiError Instance × Log :=
  let id := log.nextId c.origin
  match c.make id.serial with
  | .ok b => (.ok { id, backend := b, state := b.start }, log.add (.created id))
  | .error e => (.error e, log.add (.refused id e))

namespace Instance

/-- The name that the backend gives itself. -/
def name (i : Instance) : String := i.backend.name

/-- Sets an option. -/
def setOption (i : Instance) (name value : String) (log : Log) : OptionAnswer × Instance × Log :=
  let (answer, state) := i.backend.setOption i.state name value
  let log := if i.backend.reaches name value then log.add (.configured i.id name value) else log
  (answer, { i with state }, log)

/-- Makes a call. -/
def execute (i : Instance) (r : Revision) (message : Message) (observed : Bool) (log : Log) :
    Reply × Instance × Log :=
  let (reply, state) := i.backend.execute i.state r message observed
  (reply, { i with state }, log.add (.executed i.id r message observed))

/-- Releases the instance. -/
def release (i : Instance) (log : Log) : Log := log.add (.released i.id)

end Instance

/-- What a caller finds behind the answer to a call through a table. -/
structure RawReply where
  /-- The number of the status. -/
  status : Int
  /-- The gas that is left. -/
  gasLeft : Int
  /-- The output, if there is a pointer to one. -/
  output : Option Bytes
deriving DecidableEq, Repr

/-- Makes an instance behind its table, makes one call through the table, and releases the instance.
The call gets to the engine only if it knows the revision of the number. -/
def PluginConstructor.callOnce (p : PluginConstructor) (revision : Int) (message : Message)
    (log : Log) : Option RawReply × Log :=
  let id := log.nextId p.origin
  match p.make id.serial with
  | none => (none, log.add (.refused id .nullInstance))
  | some t =>
    let (raw, _, s) := t.execute t.start revision (.ofMessage message)
    let reply := { status := raw.status, gasLeft := raw.gasLeft, output := (t.output s raw).bytes? }
    let call := (Revision.ofRaw? revision).map fun r => Event.executed id r message false
    (some reply, log.addAll ([.created id] ++ call.toList ++ [.released id]))

end EvmDispatch
