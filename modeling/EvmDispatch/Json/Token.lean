import EvmDispatch.Json.Basic

/-!
# The tokens of a JSON text

A text is cut into tokens by a machine that takes one character at a time, so the cutting needs no
measure. Blanks are the four of the format. Inside a string the machine collects the characters and
resolves the escapes. An escape by number may name half of a surrogate pair. If the other half
follows at once, the two give one character; if not, the string is a token of its own kind.
-/

namespace EvmDispatch.Json

/-- A token. -/
inductive Token where
  /-- The start of an object. -/
  | openObject
  /-- The end of an object. -/
  | closeObject
  /-- The start of an array. -/
  | openArray
  /-- The end of an array. -/
  | closeArray
  /-- The colon between a name and its value. -/
  | colon
  /-- The comma between two elements. -/
  | comma
  /-- A string; one with an unpaired surrogate has no text. -/
  | text (value : Option String)
  /-- Any other value that has no parts: a number or a word. -/
  | atom (value : Json)

/-- The part of a string that has been read. -/
structure Draft where
  /-- The characters read, last first. -/
  reversed : List Char := []
  /-- The first half of a surrogate pair, if it was the last thing read. -/
  half : Option Nat := none
  /-- Whether an unpaired surrogate has been read. -/
  unpaired : Bool := false

namespace Draft

/-- A half that no second half has followed is unpaired. -/
def settle (d : Draft) : Draft :=
  if d.half.isSome then { d with half := none, unpaired := true } else d

/-- Adds a character. -/
def push (d : Draft) (c : Char) : Draft :=
  let d := d.settle
  { d with reversed := c :: d.reversed }

/-- Adds what an escape by number stands for. -/
def pushUnit (d : Draft) (unit : Nat) : Draft :=
  if 0xd800 ≤ unit ∧ unit < 0xdc00 then
    { d.settle with half := some unit }
  else if 0xdc00 ≤ unit ∧ unit < 0xe000 then
    match d.half with
    | some high =>
      let c := Char.ofNat (0x10000 + (high - 0xd800) * 0x400 + (unit - 0xdc00))
      { d with reversed := c :: d.reversed, half := none }
    | none => { d with unpaired := true }
  else d.push (Char.ofNat unit)

/-- The token of the finished string. -/
def finish (d : Draft) : Token :=
  let d := d.settle
  .text (if d.unpaired then none else some (String.ofList d.reversed.reverse))

end Draft

/-- What the machine is in the middle of. -/
inductive Scan where
  /-- Nothing: between two tokens. -/
  | between
  /-- A number, whose characters come last first. -/
  | number (reversed : List Char)
  /-- A word, whose characters come last first. -/
  | word (reversed : List Char)
  /-- A string. -/
  | string (draft : Draft)
  /-- A string, just after a backslash. -/
  | escape (draft : Draft)
  /-- An escape by number, of which `left` digits are missing. -/
  | unit (draft : Draft) (left value : Nat)

/-- The digits at the front of a list. -/
def digitsOf (cs : List Char) : List Char := cs.takeWhile Char.isDigit

/-- What follows the digits at the front of a list. -/
def afterDigits (cs : List Char) : List Char := cs.dropWhile Char.isDigit

/-- Whether a list is an exponent, or empty. -/
def isExponent : List Char → Bool
  | [] => true
  | c :: rest =>
    let digits := match rest with
      | '+' :: more => more
      | '-' :: more => more
      | more => more
    (c == 'e' || c == 'E') && !digits.isEmpty && digits.all Char.isDigit

/-- Whether a list is a fraction and an exponent, each of which may be missing. -/
def isFractionAndExponent : List Char → Bool
  | '.' :: rest => !(digitsOf rest).isEmpty && isExponent (afterDigits rest)
  | cs => isExponent cs

/-- Whether a list of digits is the integer part of a number: it is not empty, and a zero in front
stands alone. -/
def isIntegerPart : List Char → Bool
  | [] => false
  | ['0'] => true
  | c :: _ => c != '0'

/-- The value of a list of digits. -/
def valueOfDigits (cs : List Char) : Nat :=
  cs.foldl (fun n c => 10 * n + (c.toNat - 0x30)) 0

/-- The number that a spelling stands for. An integer is kept by value, unless it is the zero with
a sign; any other number is kept by its spelling. -/
def ofSpelling? (cs : List Char) : Option Json :=
  let unsigned := match cs with
    | '-' :: rest => rest
    | rest => rest
  let digits := digitsOf unsigned
  if !(isIntegerPart digits && isFractionAndExponent (afterDigits unsigned)) then none
  else if (afterDigits unsigned).isEmpty && cs != ['-', '0'] then
    let value : Int := valueOfDigits digits
    some (.integer (if cs.head? == some '-' then -value else value))
  else some (.spelled (String.ofList cs))

/-- The value that a word stands for. -/
def ofWord? (cs : List Char) : Option Json :=
  if cs == "null".toList then some .null
  else if cs == "true".toList then some (.bool true)
  else if cs == "false".toList then some (.bool false)
  else none

/-- The tokens of a number or a word that ends here, in front of the tokens read before it. The
tokens come last first. -/
def Scan.close? (tokens : List Token) : Scan → Option (List Token)
  | .between => some tokens
  | .number reversed => (ofSpelling? reversed.reverse).map fun v => .atom v :: tokens
  | .word reversed => (ofWord? reversed.reverse).map fun v => .atom v :: tokens
  | _ => none

/-- Whether a character can occur in a number. -/
def isNumberChar (c : Char) : Bool :=
  c.isDigit || c == '-' || c == '+' || c == '.' || c == 'e' || c == 'E'

/-- Starts a new token at a character. -/
def Scan.start? (tokens : List Token) (c : Char) : Option (Scan × List Token) :=
  if c == ' ' || c == '\t' || c == '\n' || c == '\r' then some (.between, tokens)
  else if c == '\x7b' then some (.between, .openObject :: tokens)
  else if c == '\x7d' then some (.between, .closeObject :: tokens)
  else if c == '[' then some (.between, .openArray :: tokens)
  else if c == ']' then some (.between, .closeArray :: tokens)
  else if c == ':' then some (.between, .colon :: tokens)
  else if c == ',' then some (.between, .comma :: tokens)
  else if c == '"' then some (.string {}, tokens)
  else if c.isDigit || c == '-' then some (.number [c], tokens)
  else if c.isLower then some (.word [c], tokens)
  else none

/-- The character of an escape by letter. -/
def escaped? (c : Char) : Option Char :=
  if c == '"' || c == '\\' || c == '/' then some c
  else if c == 'b' then some '\x08'
  else if c == 'f' then some '\x0c'
  else if c == 'n' then some '\n'
  else if c == 'r' then some '\r'
  else if c == 't' then some '\t'
  else none

/-- The value of a hexadecimal digit of either case. -/
def hexValue? (c : Char) : Option Nat :=
  if c.isDigit then some (c.toNat - 0x30)
  else if 'a' ≤ c ∧ c ≤ 'f' then some (c.toNat - 0x57)
  else if 'A' ≤ c ∧ c ≤ 'F' then some (c.toNat - 0x37)
  else none

/-- One step of the machine. The tokens come last first. -/
def Scan.step? (tokens : List Token) (c : Char) : Scan → Option (Scan × List Token)
  | .between => Scan.start? tokens c
  | .number reversed =>
    if isNumberChar c then some (.number (c :: reversed), tokens)
    else do Scan.start? (← Scan.close? tokens (.number reversed)) c
  | .word reversed =>
    if c.isLower then some (.word (c :: reversed), tokens)
    else do Scan.start? (← Scan.close? tokens (.word reversed)) c
  | .string draft =>
    if c == '"' then some (.between, draft.finish :: tokens)
    else if c == '\\' then some (.escape draft, tokens)
    else if c.toNat < 0x20 then none
    else some (.string (draft.push c), tokens)
  | .escape draft =>
    if c == 'u' then some (.unit draft 4 0, tokens)
    else (escaped? c).map fun e => (.string (draft.push e), tokens)
  | .unit draft left value =>
    (hexValue? c).map fun d =>
      let unit := 16 * value + d
      if left ≤ 1 then (.string (draft.pushUnit unit), tokens)
      else (.unit draft (left - 1) unit, tokens)

/-- Runs the machine over the rest of a text. -/
def scanFrom? (scan : Scan) (tokens : List Token) : List Char → Option (List Token)
  | [] => (scan.close? tokens).map List.reverse
  | c :: rest =>
    match scan.step? tokens c with
    | some (next, more) => scanFrom? next more rest
    | none => none

/-- The tokens of a text, if every part of it belongs to one. -/
def tokens? (text : String) : Option (List Token) :=
  scanFrom? .between [] text.toList

end EvmDispatch.Json
