/-!
# Ranges of integers

The integers that fit into a number of bits, with or without a sign. Readers of numerals and of
JSON ask for an integer of a range, and take no other.
-/

namespace EvmDispatch

/-- The integers from `low` up to, but not including, `bound`. -/
structure IntegerRange where
  /-- The smallest integer of the range. -/
  low : Int
  /-- The smallest integer behind the range. -/
  bound : Int
deriving DecidableEq, Repr

namespace IntegerRange

/-- The unsigned integers of 64 bits. -/
def unsigned64 : IntegerRange := ⟨0, 0x10000000000000000⟩

/-- The signed integers of 64 bits. -/
def signed64 : IntegerRange := ⟨-0x8000000000000000, 0x8000000000000000⟩

/-- The signed integers of 32 bits. -/
def signed32 : IntegerRange := ⟨-0x80000000, 0x80000000⟩

/-- Whether an integer lies in the range. -/
def contains (r : IntegerRange) (n : Int) : Bool := decide (r.low ≤ n) && decide (n < r.bound)

end IntegerRange

end EvmDispatch
