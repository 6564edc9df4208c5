import EvmDispatch.Factory
import EvmDispatch.Json.Printer
import EvmDispatch.Text.Paint

/-!
# Listing the backends

The command shows the registered backends in the order of their names and marks the default.
-/

namespace EvmDispatch.Command

/-- The registered backends and the default among them. -/
structure Listing where
  /-- The name of the default. -/
  default : String
  /-- The names in their order, each with where the backend comes from. -/
  backends : List (String × BackendKind)
deriving DecidableEq, Repr

/-- The listing for a factory. -/
def Listing.ofFactory (f : Factory) : Listing where
  default := f.default
  backends := f.registry.kinds

namespace Listing

/-- The listing as a record. -/
def toJson (l : Listing) : Json :=
  Json.ofMembers [("default", .text l.default),
    ("backends", .array (l.backends.map fun b =>
      Json.ofMembers (("name", .text b.1) :: b.2.members)))]

/-- A text with blanks behind it, up to a width. -/
def padded (width : Nat) (text : String) : String :=
  text ++ String.ofList (List.replicate (width - text.length) ' ')

/-- The line for a backend. -/
def line (colours : Bool) (l : Listing) (backend : String × BackendKind) : String :=
  let mark := if backend.1 == l.default then Text.paint colours .good "*" else " "
  "  " ++ mark ++ " " ++ padded 16 backend.1 ++ " " ++ Text.paint colours .faint backend.2.text ++
    "\n"

/-- The listing for a reader. -/
def text (colours : Bool) (l : Listing) : String :=
  Text.paint colours .heading "Available backends:" ++ "\n" ++
    String.join (l.backends.map (l.line colours))

end Listing

end EvmDispatch.Command
