/-!
# JSON values

The values that configuration files, results and listings are written in. Numbers are integers: a
number that is written in any other way is kept by its spelling, so that a reader can refuse it, or
pass over it in a field that it does not know. In the same way a text whose escapes name half of a
surrogate pair is kept as a value of its own, since only a reader that passes over it accepts it.
-/

namespace EvmDispatch

/-- A JSON value. The members of an object keep their order and may repeat a name. -/
inductive Json where
  /-- The null value. -/
  | null
  /-- A truth value. -/
  | bool (value : Bool)
  /-- A number written as an integer. -/
  | integer (value : Int)
  /-- A number with a fraction, an exponent or the sign of a negative zero, by its spelling. -/
  | spelled (digits : String)
  /-- A text. -/
  | text (value : String)
  /-- A text with an unpaired surrogate. -/
  | unpaired
  /-- An array. -/
  | array (items : List Json)
  /-- An object. A name with an unpaired surrogate is missing. -/
  | object (members : List (Option String × Json))
deriving Inhabited

namespace Json

/-- The object with these members. -/
def ofMembers (members : List (String × Json)) : Json :=
  .object (members.map fun m => (some m.1, m.2))

/-- The integer of a natural number. -/
def ofNat (n : Nat) : Json := .integer n

/-- A value or null. -/
def ofOption : Option Json → Json
  | none => .null
  | some value => value

/-- The value of the first member of that name. -/
def member? (name : String) : Json → Option Json
  | .object members => (members.find? fun m => m.1 == some name).map (·.2)
  | _ => none

end Json

end EvmDispatch
