import EvmDispatch.IntegerRange

/-!
# Decimal numerals

Options and command-line arguments are read as decimal integers in ASCII digits. An unsigned
numeral may carry a `+`, a signed one a `+` or a `-`; neither may hold blanks, separators or an
empty digit sequence. A numeral whose value lies outside the range asked for is no numeral of that
range.
-/

namespace EvmDispatch.Text

/-- The value of a nonempty sequence of ASCII digits. -/
def digitsValue? : List Char → Option Nat
  | [] => none
  | cs =>
    if cs.all (fun c => '0' ≤ c && c ≤ '9') then
      some (cs.foldl (fun n c => 10 * n + (c.toNat - 0x30)) 0)
    else none

/-- The value of an unsigned numeral of a range. -/
def unsigned? (range : IntegerRange) (text : String) : Option Nat :=
  let digits := match text.toList with
    | '+' :: rest => rest
    | cs => cs
  (digitsValue? digits).filter fun n => range.contains n

/-- The value of a signed numeral of a range. -/
def signed? (range : IntegerRange) (text : String) : Option Int :=
  let value? := match text.toList with
    | '-' :: rest => (digitsValue? rest).map fun n => -(n : Int)
    | '+' :: rest => (digitsValue? rest).map fun n => (n : Int)
    | cs => (digitsValue? cs).map fun n => (n : Int)
  value?.filter range.contains

/-- Unsigned numerals of 64 bits. -/
def unsigned64? : String → Option Nat := unsigned? .unsigned64

/-- Signed numerals of 64 bits. -/
def signed64? : String → Option Int := signed? .signed64

end EvmDispatch.Text
