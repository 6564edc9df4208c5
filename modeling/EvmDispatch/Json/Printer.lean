import EvmDispatch.Json.Basic

/-!
# Writing a JSON text

Two layouts are in use: a compact one without any blank, and an indented one with two blanks per
level and a line per element, in which an empty array or object stays on one line. Strings escape
the quote, the backslash and the control characters below the blank, the five usual ones by letter
and the others by number. All other characters are written as they are.

Each writer appends to the text written so far, so a long text is built in one pass.
-/

namespace EvmDispatch.Json

/-- The four digits of a number below `16 ^ 4`. -/
def fourDigits (n : Nat) : List Char :=
  [n / 4096, n / 256, n / 16, n].map fun d => Nat.digitChar (d % 16)

/-- A character inside a string. -/
def escapedChar (c : Char) : List Char :=
  if c == '"' then ['\\', '"']
  else if c == '\\' then ['\\', '\\']
  else if c == '\x08' then ['\\', 'b']
  else if c == '\x0c' then ['\\', 'f']
  else if c == '\n' then ['\\', 'n']
  else if c == '\r' then ['\\', 'r']
  else if c == '\t' then ['\\', 't']
  else if c.toNat < 0x20 then ['\\', 'u'] ++ fourDigits c.toNat
  else [c]

/-- A string with its quotes. -/
def stringText (s : String) : String :=
  String.ofList (['"'] ++ s.toList.flatMap escapedChar ++ ['"'])

/-- The text of a name. A name that has none is never written. -/
def nameText (name : Option String) : String := stringText (name.getD "")

mutual

/-- Appends a value in the compact layout. -/
def appendCompact (out : String) : Json → String
  | .null => out ++ "null"
  | .bool true => out ++ "true"
  | .bool false => out ++ "false"
  | .integer n => out ++ toString n
  | .spelled digits => out ++ digits
  | .text s => out ++ stringText s
  | .unpaired => out ++ stringText ""
  | .array items => appendItems (out ++ "[") items ++ "]"
  | .object members => appendMembers (out ++ "\x7b") members ++ "\x7d"

/-- Appends the items of an array with commas between them. -/
def appendItems (out : String) : List Json → String
  | [] => out
  | [item] => appendCompact out item
  | item :: rest => appendItems (appendCompact out item ++ ",") rest

/-- Appends the members of an object with commas between them. -/
def appendMembers (out : String) : List (Option String × Json) → String
  | [] => out
  | [(name, value)] => appendCompact (out ++ nameText name ++ ":") value
  | (name, value) :: rest =>
    appendMembers (appendCompact (out ++ nameText name ++ ":") value ++ ",") rest

end

/-- The compact layout. -/
def compact (value : Json) : String := appendCompact "" value

/-- A line end and the indentation of a level. -/
def newLine (level : Nat) : String :=
  String.ofList ('\n' :: List.replicate (2 * level) ' ')

mutual

/-- Appends a value in the indented layout, at a level. -/
def appendIndented (level : Nat) (out : String) : Json → String
  | .array [] => out ++ "[]"
  | .array (item :: rest) =>
    appendLines (level + 1) (out ++ "[") (item :: rest) ++ newLine level ++ "]"
  | .object [] => out ++ "\x7b\x7d"
  | .object (member :: rest) =>
    appendMemberLines (level + 1) (out ++ "\x7b") (member :: rest) ++ newLine level ++ "\x7d"
  | .null => appendCompact out .null
  | .bool value => appendCompact out (.bool value)
  | .integer n => appendCompact out (.integer n)
  | .spelled digits => appendCompact out (.spelled digits)
  | .text s => appendCompact out (.text s)
  | .unpaired => appendCompact out .unpaired

/-- Appends the items of an array, one to a line. -/
def appendLines (level : Nat) (out : String) : List Json → String
  | [] => out
  | [item] => appendIndented level (out ++ newLine level) item
  | item :: rest =>
    appendLines level (appendIndented level (out ++ newLine level) item ++ ",") rest

/-- Appends the members of an object, one to a line. -/
def appendMemberLines (level : Nat) (out : String) : List (Option String × Json) → String
  | [] => out
  | [(name, value)] => appendIndented level (out ++ newLine level ++ nameText name ++ ": ") value
  | (name, value) :: rest =>
    appendMemberLines level
      (appendIndented level (out ++ newLine level ++ nameText name ++ ": ") value ++ ",") rest

end

/-- The indented layout of a whole text. -/
def pretty (value : Json) : String := appendIndented 0 "" value

end EvmDispatch.Json
