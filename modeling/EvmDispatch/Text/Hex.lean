import EvmDispatch.Text.Blank

/-!
# Bytes as hexadecimal text

`encode` writes two lowercase digits per byte. `decode` reads them back; it is more liberal than
`encode` in three ways: white space around the digits, one leading `0x`, and digits of either case.
Everything else is an error that says what is wrong with the trimmed digits: first their number,
then the leftmost character that is no digit.
-/

namespace EvmDispatch

/-- A sequence of bytes: code, call data, output. -/
abbrev Bytes := List UInt8

namespace Hex

/-- Why a text is not a sequence of bytes. -/
inductive Error where
  /-- The number of characters is odd. -/
  | oddLength (count : Nat)
  /-- The character at this position is no hexadecimal digit. -/
  | invalidDigit (digit : Char) (index : Nat)
deriving DecidableEq, Repr

/-- The message that a user sees. -/
def Error.message : Error → String
  | .oddLength count => s!"odd number of hex digits ({count})"
  | .invalidDigit digit index => s!"invalid hex digit '{digit}' at position {index}"

/-- The lowercase digit of a number below sixteen. -/
def digit (n : Nat) : Char :=
  if n < 10 then Char.ofNat (0x30 + n) else Char.ofNat (0x57 + n)

/-- The two digits of a byte, the high one first. -/
def digitsOfByte (b : UInt8) : List Char :=
  [digit (b.toNat / 16), digit (b.toNat % 16)]

/-- Two lowercase digits per byte, as characters. -/
def encodeChars (bytes : Bytes) : List Char :=
  bytes.flatMap digitsOfByte

/-- Two lowercase digits per byte, without a leading mark. -/
def encode (bytes : Bytes) : String :=
  String.ofList (encodeChars bytes)

/-- The value of a digit of either case. -/
def digitValue? (c : Char) : Option Nat :=
  if '0' ≤ c ∧ c ≤ '9' then some (c.toNat - 0x30)
  else if 'a' ≤ c ∧ c ≤ 'f' then some (c.toNat - 0x57)
  else if 'A' ≤ c ∧ c ≤ 'F' then some (c.toNat - 0x37)
  else none

/-- The value of the digit at position `index`, or the complaint about it. -/
def nibble (index : Nat) (c : Char) : Except Error Nat :=
  match digitValue? c with
  | some value => .ok value
  | none => .error (.invalidDigit c index)

/-- Reads pairs of digits, the first of which stands at position `index`. A single character left
over is ignored: the caller has checked that their number is even. -/
def decodePairs (index : Nat) : List Char → Except Error Bytes
  | high :: low :: rest => do
    let h ← nibble index high
    let l ← nibble (index + 1) low
    let bytes ← decodePairs (index + 2) rest
    return UInt8.ofNat (16 * h + l) :: bytes
  | _ => .ok []

/-- Reads a text whose white space and leading mark are already gone. -/
def decodeDigits (digits : List Char) : Except Error Bytes :=
  if digits.length % 2 = 1 then .error (.oddLength digits.length) else decodePairs 0 digits

/-- Reads the bytes that a text writes, with optional white space around it and an optional `0x`
in front of the digits. -/
def decode (text : String) : Except Error Bytes :=
  decodeDigits (Text.dropHexMark (Text.trim text.toList))

end Hex

end EvmDispatch
