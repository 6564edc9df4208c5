import EvmDispatch.Json.Token

/-!
# Reading a JSON text

A text is one value with nothing but blanks around it. The reader goes through the tokens once and
keeps the arrays and objects that are still open on a stack, so nesting has no limit.
-/

namespace EvmDispatch.Json

/-- An array or object that is still open. Its finished parts come last first. -/
inductive Open where
  /-- An array. -/
  | array (items : List Json)
  /-- An object between two members. -/
  | object (members : List (Option String × Json))
  /-- An object that waits for the value of a member. -/
  | member (members : List (Option String × Json)) (name : Option String)

/-- What may come next. -/
inductive Expect where
  /-- A value. -/
  | value
  /-- A value, or the end of the array. -/
  | itemOrClose
  /-- A name. -/
  | name
  /-- A name, or the end of the object. -/
  | nameOrClose
  /-- The colon after a name. -/
  | colon (name : Option String)
  /-- A comma, or the end of the innermost array or object. -/
  | commaOrClose
  /-- Nothing: the value is complete. -/
  | nothing (value : Json)

/-- Puts a finished value where it belongs. -/
def place (value : Json) : List Open → Option (Expect × List Open)
  | [] => some (.nothing value, [])
  | .array items :: rest => some (.commaOrClose, .array (value :: items) :: rest)
  | .member members name :: rest => some (.commaOrClose, .object ((name, value) :: members) :: rest)
  | .object _ :: _ => none

/-- Takes a token where a value is due. -/
def takeValue (stack : List Open) : Token → Option (Expect × List Open)
  | .openArray => some (.itemOrClose, .array [] :: stack)
  | .openObject => some (.nameOrClose, .object [] :: stack)
  | .text (some value) => place (.text value) stack
  | .text none => place .unpaired stack
  | .atom value => place value stack
  | _ => none

/-- Takes the token that ends the innermost array or object. -/
def takeClose : List Open → Token → Option (Expect × List Open)
  | .array items :: rest, .closeArray => place (.array items.reverse) rest
  | .object members :: rest, .closeObject => place (.object members.reverse) rest
  | _, _ => none

/-- Takes one token. -/
def take (token : Token) : Expect → List Open → Option (Expect × List Open)
  | .value, stack => takeValue stack token
  | .itemOrClose, stack => (takeClose stack token).or (takeValue stack token)
  | .name, stack =>
    match token with
    | .text name => some (.colon name, stack)
    | _ => none
  | .nameOrClose, stack =>
    match token with
    | .text name => some (.colon name, stack)
    | _ => takeClose stack token
  | .colon name, .object members :: rest =>
    match token with
    | .colon => some (.value, .member members name :: rest)
    | _ => none
  | .colon _, _ => none
  | .commaOrClose, stack =>
    match token, stack with
    | .comma, .array _ :: _ => some (.value, stack)
    | .comma, .object _ :: _ => some (.name, stack)
    | _, _ => takeClose stack token
  | .nothing _, _ => none

/-- Reads the value that a list of tokens writes. -/
def ofTokens? (expect : Expect) (stack : List Open) : List Token → Option Json
  | [] =>
    match expect with
    | .nothing value => some value
    | _ => none
  | token :: rest =>
    match take token expect stack with
    | some (next, more) => ofTokens? next more rest
    | none => none

/-- Reads the value that a text writes. -/
def read? (text : String) : Option Json := do
  ofTokens? .value [] (← tokens? text)

end EvmDispatch.Json
