import EvmDispatch.Json.Fields
import EvmDispatch.Text.Hex

/-!
# Account addresses

An address is twenty bytes, written as forty hexadecimal digits after `0x`. The reader drops one
`0x` and leaves the rest to the reader of bytes, which drops white space and one more `0x` of its
own.
-/

namespace EvmDispatch

/-- An account address. -/
structure Address where
  /-- The bytes, most significant first. -/
  bytes : Bytes
  /-- There are twenty of them. -/
  length_eq : bytes.length = 20
deriving DecidableEq

namespace Address

/-- The address whose bytes are all zero. -/
def zero : Address := ⟨List.replicate 20 0, by simp⟩

instance : Inhabited Address := ⟨zero⟩

/-- The address of these bytes, if there are twenty. -/
def ofBytes? (bytes : Bytes) : Option Address :=
  if h : bytes.length = 20 then some ⟨bytes, h⟩ else none

/-- The address that is zero but for its last byte. -/
def ofLowByte (b : UInt8) : Address := ⟨List.replicate 19 0 ++ [b], by simp⟩

/-- The written form: `0x` and forty lowercase digits. -/
def text (a : Address) : String := "0x" ++ Hex.encode a.bytes

/-- A text that is no address. -/
structure Invalid where
  /-- The text as it was given. -/
  text : String
deriving DecidableEq, Repr

/-- The message that a user sees. -/
def Invalid.message (e : Invalid) : String :=
  "invalid address '" ++ e.text ++ "': expected 40 hex digits with optional 0x prefix"

/-- Reads an address. -/
def parse (text : String) : Except Invalid Address :=
  match Hex.decode (String.ofList (Text.dropHexMark text.toList)) with
  | .ok bytes =>
    match ofBytes? bytes with
    | some a => .ok a
    | none => .error ⟨text⟩
  | .error _ => .error ⟨text⟩

/-- The order of the byte sequences. -/
def compare (a b : Address) : Ordering :=
  List.compareLex (fun x y : UInt8 => Ord.compare x y) a.bytes b.bytes

/-- An address in results. -/
def toJson (a : Address) : Json := .text a.text

/-- An address in a configuration. -/
def ofJson? (value : Json) : Option Address := do
  (parse (← Json.text? value)).toOption

end Address

end EvmDispatch
