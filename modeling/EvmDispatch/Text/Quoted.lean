import EvmDispatch.Text.Printable

/-!
# Quoted text

Names, paths and option values are shown to a developer in double quotes. A quote and a backslash
are escaped by a backslash, the tabulator and the line ends by their letter, the null character as a
zero, and every other character that is not printable by its number in braces. An apostrophe ends
nothing there and stays as it is.
-/

namespace EvmDispatch.Text

/-- The hexadecimal digits of a number without leading zeros, at least one. -/
def hexDigits (n : Nat) : List Char := Nat.toDigits 16 n

/-- One character inside double quotes. -/
def quotedChar (c : Char) : List Char :=
  if c == '"' then ['\\', '"']
  else if c == '\\' then ['\\', '\\']
  else if c == '\t' then ['\\', 't']
  else if c == '\r' then ['\\', 'r']
  else if c == '\n' then ['\\', 'n']
  else if c.toNat == 0 then ['\\', '0']
  else if isPrintable c then [c]
  else ['\\', 'u', '\x7b'] ++ hexDigits c.toNat ++ ['\x7d']

/-- The text in double quotes, with everything escaped that would not show. -/
def quoted (text : String) : String :=
  String.ofList (['"'] ++ text.toList.flatMap quotedChar ++ ['"'])

/-- A quoted text that may be missing. -/
def quotedOption : Option String → String
  | none => "None"
  | some text => "Some(" ++ quoted text ++ ")"

end EvmDispatch.Text
