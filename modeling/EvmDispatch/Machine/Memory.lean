import Std.Data.HashMap
import EvmDispatch.Status
import EvmDispatch.Word.Basic

/-!
# Memory

Memory is an array of bytes that grows by whole words and reads as zero where nothing has been
written. Only the bytes that have been written are kept, so its size costs nothing. What the growth
costs in gas is a function of the sizes before and after. Growing and pricing do not access memory
themselves; who reads or writes makes sure that the memory covers the range.
-/

namespace EvmDispatch

/-- The memory of a frame. -/
structure Memory where
  /-- The number of bytes, a multiple of 32. -/
  size : Nat := 0
  /-- The bytes that have been written. -/
  cells : Std.HashMap Nat UInt8 := ∅

namespace Memory

/-- The greatest size in bytes. -/
def maxSize : Nat := 0x100000000

/-- What a memory of so many words costs in all. -/
def wordsPrice (words : Nat) : Nat := 3 * words + words * words / 512

/-- The number of words that hold so many bytes. -/
def wordsFor (bytes : Nat) : Nat := (bytes + 31) / 32

/-- The end of an access, or none for an empty access, which is allowed everywhere. -/
def accessEnd (offset size : Nat) : Except Status (Option Nat) :=
  if size = 0 then .ok none
  else if offset + size ≤ maxSize then .ok (some (offset + size))
  else .error .outOfGas

/-- What it costs to make an access possible. -/
def expansionPrice (m : Memory) (offset size : Nat) : Except Status Nat := do
  match ← accessEnd offset size with
  | some stop =>
    if m.size < stop then
      return wordsPrice (wordsFor stop) - wordsPrice (wordsFor m.size)
    else return 0
  | none => return 0

/-- Makes an access possible. -/
def expand (m : Memory) (offset size : Nat) : Except Status Memory := do
  match ← accessEnd offset size with
  | some stop =>
    if m.size < stop then return { m with size := 32 * wordsFor stop } else return m
  | none => return m

/-- The byte at an address. -/
def byteAt (m : Memory) (address : Nat) : UInt8 := m.cells.getD address 0

/-- The bytes from `offset` up to `offset + size`, put before `rest`. -/
def bytesBefore (m : Memory) (offset : Nat) : Nat → Bytes → Bytes
  | 0, rest => rest
  | size + 1, rest => bytesBefore m offset size (m.byteAt (offset + size) :: rest)

/-- The bytes of a range. -/
def slice (m : Memory) (offset size : Nat) : Bytes := m.bytesBefore offset size []

/-- The cells with a sequence of bytes written from an address on. -/
def writeCells (cells : Std.HashMap Nat UInt8) (offset : Nat) : Bytes → Std.HashMap Nat UInt8
  | [] => cells
  | b :: rest => writeCells (cells.insert offset b) (offset + 1) rest

/-- The memory with a sequence of bytes written from an offset on. Its size stays. -/
def write (m : Memory) (offset : Nat) (bytes : Bytes) : Memory :=
  { m with cells := writeCells m.cells offset bytes }

/-- Whether a range lies inside the present size. An empty range does everywhere. -/
def covers (m : Memory) (offset size : Nat) : Bool :=
  size == 0 || decide (offset + size ≤ m.size)

/-! ## Growth -/

/-- The memory once an access has been made possible. -/
def expanded (m : Memory) (offset size : Nat) : Memory :=
  if size ≠ 0 ∧ m.size < offset + size then { m with size := 32 * wordsFor (offset + size) } else m

/-- The price of the memory as it is. -/
def worth (m : Memory) : Nat := wordsPrice (wordsFor m.size)

@[simp] theorem size_write (m : Memory) (offset : Nat) (bytes : Bytes) :
    (m.write offset bytes).size = m.size := rfl

@[simp] theorem worth_write (m : Memory) (offset : Nat) (bytes : Bytes) :
    (m.write offset bytes).worth = m.worth := rfl

theorem wordsFor_mul (words : Nat) : wordsFor (32 * words) = words := by
  unfold wordsFor
  omega

/-- The price of growing is the difference of what the memory is worth after it and before. -/
theorem expansionPrice_eq (m : Memory) (offset size : Nat) :
    m.expansionPrice offset size =
      if size = 0 ∨ offset + size ≤ maxSize then .ok ((m.expanded offset size).worth - m.worth)
      else .error .outOfGas := by
  unfold expansionPrice accessEnd expanded worth
  by_cases hz : size = 0
  · simp [hz, bind, Except.bind, pure, Except.pure]
  · by_cases hm : offset + size ≤ maxSize
    · by_cases hs : m.size < offset + size <;>
        simp [hz, hm, hs, wordsFor_mul, bind, Except.bind, pure, Except.pure]
    · simp [hz, hm, bind, Except.bind]

/-- The memory grows over everything but a range that ends behind the last byte there can be. -/
theorem expand_eq (m : Memory) (offset size : Nat) :
    m.expand offset size =
      if size = 0 ∨ offset + size ≤ maxSize then .ok (m.expanded offset size)
      else .error .outOfGas := by
  unfold expand accessEnd expanded
  by_cases hz : size = 0
  · simp [hz, bind, Except.bind, pure, Except.pure]
  · by_cases hm : offset + size ≤ maxSize
    · by_cases hs : m.size < offset + size <;>
        simp [hz, hm, hs, bind, Except.bind, pure, Except.pure]
    · simp [hz, hm, bind, Except.bind]

/-- Growing is refused for one reason, and when it is priced. -/
theorem error_of_expansionPrice {m : Memory} {offset size : Nat} {status : Status}
    (h : m.expansionPrice offset size = .error status) : status = .outOfGas := by
  rw [expansionPrice_eq] at h
  split at h <;> cases h
  rfl

theorem expand_of_expansionPrice {m : Memory} {offset size price : Nat}
    (h : m.expansionPrice offset size = .ok price) :
    m.expand offset size = .ok (m.expanded offset size) := by
  rw [expansionPrice_eq] at h
  rw [expand_eq]
  split at h
  · rename_i bounded
    exact if_pos bounded
  · cases h

theorem le_size_expanded (m : Memory) (offset size : Nat) :
    m.size ≤ (m.expanded offset size).size := by
  unfold expanded
  split
  · simp only [wordsFor]
    omega
  · exact Nat.le_refl _

/-- A range that the memory has been grown for is covered. -/
theorem covers_expanded (m : Memory) (offset size : Nat) :
    (m.expanded offset size).covers offset size = true := by
  unfold expanded covers
  by_cases hz : size = 0
  · simp [hz]
  · by_cases hs : m.size < offset + size
    · simp [hz, hs, wordsFor]
      omega
    · simp [hz, hs]
      omega

theorem wordsPrice_mono {a b : Nat} (h : a ≤ b) : wordsPrice a ≤ wordsPrice b := by
  unfold wordsPrice
  have hsq : a * a / 512 ≤ b * b / 512 := Nat.div_le_div_right (Nat.mul_le_mul h h)
  omega

/-- Growing makes the memory dearer, never cheaper, so no price is cut off at zero. -/
theorem worth_le_expanded (m : Memory) (offset size : Nat) :
    m.worth ≤ (m.expanded offset size).worth := by
  apply wordsPrice_mono
  have h := m.le_size_expanded offset size
  unfold wordsFor
  omega

/-- A memory of whole words grows by whole words. -/
theorem dvd_size_expanded {m : Memory} {offset size : Nat} (h : 32 ∣ m.size) :
    32 ∣ (m.expanded offset size).size := by
  unfold expanded
  split
  · exact Nat.dvd_mul_right 32 _
  · exact h

/-- A memory of whole words is worth the price of its words. -/
theorem worth_of_dvd {m : Memory} (h : 32 ∣ m.size) : m.worth = wordsPrice (m.size / 32) := by
  have hwords : wordsFor m.size = m.size / 32 := by
    unfold wordsFor
    omega
  rw [worth, hwords]

end Memory

end EvmDispatch
