import EvmDispatch.IntegerRange
import EvmDispatch.Json.Basic

/-!
# Records and alternatives in JSON

A record is written as an object with a member per field, or as an array of its fields in the order
of their declaration. Every field has a default, so fields may be missing, in an array from the end.
No field may be given twice. A member that is no field is passed over, unless the record is closed.
An alternative without content is written as its name, or as an object whose only member has that
name and the value null.
-/

namespace EvmDispatch.Json

/-- The members whose name is a field. In a closed record every member must be one. -/
def knownMembers? (fields : List String) (closed : Bool) :
    List (Option String × Json) → Option (List (String × Json))
  | [] => some []
  | (none, _) :: _ => none
  | (some name, value) :: rest => do
    let known ← knownMembers? fields closed rest
    if fields.contains name then
      if known.any (·.1 == name) then none else some ((name, value) :: known)
    else if closed then none
    else some known

/-- The values of the fields of a record, in their order. A field that is not given has none. -/
def record? (fields : List String) (closed : Bool) : Json → Option (List (Option Json))
  | .object members => do
    let known ← knownMembers? fields closed members
    some (fields.map fun name => (known.find? (·.1 == name)).map (·.2))
  | .array items =>
    if items.length ≤ fields.length then
      some (items.map some ++ List.replicate (fields.length - items.length) none)
    else none
  | _ => none

/-- The name of an alternative without content. -/
def alternative? : Json → Option String
  | .text name => some name
  | .object [(some name, .null)] => some name
  | _ => none

/-- A truth value. -/
def bool? : Json → Option Bool
  | .bool value => some value
  | _ => none

/-- A text. -/
def text? : Json → Option String
  | .text value => some value
  | _ => none

/-- An integer of a range. -/
def integer? (range : IntegerRange) : Json → Option Int
  | .integer n => if range.contains n then some n else none
  | _ => none

/-- The items of an array. -/
def items? : Json → Option (List Json)
  | .array items => some items
  | _ => none

/-- An array of texts. -/
def texts? (value : Json) : Option (List String) := do
  (← items? value).mapM text?

/-- The value of a field, or its default if the field is not given. -/
def field? {α : Type} (default : α) (decode : Json → Option α) : Option Json → Option α
  | none => some default
  | some value => decode value

end EvmDispatch.Json
