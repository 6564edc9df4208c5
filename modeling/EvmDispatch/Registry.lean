import Std.Data.TreeMap
import EvmDispatch.Backend.FastPath
import EvmDispatch.Backend.Interpreter
import EvmDispatch.Instance
import EvmDispatch.Json.Basic
import EvmDispatch.Text.Quoted

/-!
# The registry of backends

Backends are registered under names, and listed in the order of the names. A name that is registered
again stands for the new backend from then on; the instances of the old one are not affected.
-/

namespace EvmDispatch

/-- Where a registered backend comes from. -/
inductive BackendKind where
  /-- From this library. -/
  | builtin
  /-- From the library at a path, which exports its constructor under a symbol. -/
  | dynamic (path symbol : String)
deriving DecidableEq, Repr

namespace BackendKind

/-- The form that a user sees. -/
def text : BackendKind → String
  | builtin => "builtin"
  | dynamic path symbol => "dynamic (" ++ symbol ++ " in " ++ path ++ ")"

/-- The form that a developer sees. -/
def debugText : BackendKind → String
  | builtin => "Builtin"
  | dynamic path symbol =>
    "Dynamic \x7b path: " ++ Text.quoted path ++ ", symbol: " ++ Text.quoted symbol ++ " \x7d"

/-- The members that describe the kind in results. -/
def members : BackendKind → List (String × Json)
  | builtin => [("kind", .text "builtin")]
  | dynamic path symbol =>
    [("kind", .text "dynamic"), ("path", .text path), ("symbol", .text symbol)]

/-- A kind in results. -/
def toJson (kind : BackendKind) : Json := Json.ofMembers kind.members

end BackendKind

/-- A registered backend. -/
structure RegistryEntry where
  /-- Where it comes from. -/
  kind : BackendKind
  /-- What makes its instances. -/
  constructor : Constructor

/-- The form that a developer sees. -/
def RegistryEntry.debugText (e : RegistryEntry) : String :=
  "RegistryEntry \x7b kind: " ++ e.kind.debugText ++ ", .. \x7d"

/-- The registered backends. -/
structure Registry where
  /-- The backends by their names. -/
  entries : Std.TreeMap String RegistryEntry := ∅

namespace Registry

/-- No backends. -/
def empty : Registry := {}

/-- The backend registered under a name. -/
def get? (r : Registry) (name : String) : Option RegistryEntry := r.entries[name]?

/-- Whether a backend is registered under a name. -/
def contains (r : Registry) (name : String) : Bool := r.entries.contains name

/-- Registers a backend under a name. -/
def insert (r : Registry) (name : String) (e : RegistryEntry) : Registry :=
  ⟨r.entries.insert name e⟩

/-- Registers a backend of this library under a name. -/
def insertBuiltin (r : Registry) (name : String) (b : Backend) : Registry :=
  r.insert name { kind := .builtin, constructor := .builtin b }

/-- The backends of this library under their own names. -/
def builtins : Registry :=
  (empty.insertBuiltin Interpreter.name Interpreter.backend).insertBuiltin FastPath.name
    FastPath.backend

/-- The number of names. -/
def size (r : Registry) : Nat := r.entries.size

/-- The names with what is registered under them, in the order of the names. -/
def toList (r : Registry) : List (String × RegistryEntry) := r.entries.toList

/-- The names in their order. -/
def names (r : Registry) : List String := r.toList.map (·.1)

/-- The names in their order, each with where the backend comes from. -/
def kinds (r : Registry) : List (String × BackendKind) := r.toList.map fun e => (e.1, e.2.kind)

end Registry

end EvmDispatch
