import EvmDispatch.Address

/-!
# Stack words

A word is an integer of 256 bits, held in four limbs of 64 bits, the least significant first. Its
value is `Word.toNat`. Outside the machine a word is a sequence of 32 bytes, most significant
first.
-/

namespace EvmDispatch

/-- An unsigned integer of 256 bits. -/
@[ext] structure Word where
  /-- The bits from 0. -/
  limb0 : UInt64
  /-- The bits from 64. -/
  limb1 : UInt64
  /-- The bits from 128. -/
  limb2 : UInt64
  /-- The bits from 192. -/
  limb3 : UInt64
deriving DecidableEq, Hashable, Repr

namespace Word

/-- The number of values of a limb. -/
def limbValues : Nat := 0x10000000000000000

/-- The value. -/
def toNat (w : Word) : Nat :=
  w.limb0.toNat +
    limbValues * (w.limb1.toNat + limbValues * (w.limb2.toNat + limbValues * w.limb3.toNat))

/-- The word zero. -/
def zero : Word := ⟨0, 0, 0, 0⟩

instance : Inhabited Word := ⟨zero⟩

/-- The word of a limb. -/
def ofUInt64 (limb : UInt64) : Word := ⟨limb, 0, 0, 0⟩

/-- The word of a number, modulo `2 ^ 256`. -/
def ofNat (n : Nat) : Word :=
  ⟨UInt64.ofNat n, UInt64.ofNat (n / limbValues), UInt64.ofNat (n / limbValues / limbValues),
    UInt64.ofNat (n / limbValues / limbValues / limbValues)⟩

/-- One for true and zero for false. -/
def ofBool (b : Bool) : Word := ofUInt64 (if b then 1 else 0)

/-- Whether all limbs are zero. -/
def isZero (w : Word) : Bool :=
  w.limb0 == 0 && w.limb1 == 0 && w.limb2 == 0 && w.limb3 == 0

/-- The value, if it fits into the lowest limb. Offsets and sizes are read from words in this
way. -/
def index? (w : Word) : Option Nat :=
  if w.limb1 == 0 && w.limb2 == 0 && w.limb3 == 0 then some w.limb0.toNat else none

theorem isZero_iff (w : Word) : w.isZero = true ↔ w = .zero := by
  cases w
  simp [isZero, zero, and_assoc]

theorem toNat_of_index? {w : Word} {n : Nat} (h : w.index? = some n) : w.toNat = n := by
  unfold index? at h
  split at h
  · rename_i hlimbs
    simp only [Bool.and_eq_true, beq_iff_eq] at hlimbs
    obtain ⟨⟨h1, h2⟩, h3⟩ := hlimbs
    cases h
    simp [toNat, h1, h2, h3]
  · cases h

/-- The lowest byte. -/
def lowByte (w : Word) : UInt8 := w.limb0.toUInt8

/-! ## Bytes -/

/-- The eight bytes of a limb, most significant first. -/
def bytesOfLimb (limb : UInt64) : Bytes :=
  ([56, 48, 40, 32, 24, 16, 8, 0] : List UInt64).map fun shift => (limb >>> shift).toUInt8

/-- The number that a sequence of bytes writes, most significant first. -/
def natOfBytes (bytes : Bytes) : Nat :=
  bytes.foldl (fun n b => 256 * n + b.toNat) 0

/-- The limb that a sequence of bytes writes, most significant first; only its last eight bytes
count. -/
def limbOfBytes (bytes : Bytes) : UInt64 :=
  bytes.foldl (fun limb b => (limb <<< 8) ||| b.toUInt64) 0

/-- The 32 bytes of a word, most significant first. -/
def toBytes (w : Word) : Bytes :=
  bytesOfLimb w.limb3 ++ bytesOfLimb w.limb2 ++ bytesOfLimb w.limb1 ++ bytesOfLimb w.limb0

/-- The word of 32 bytes, most significant first. Missing bytes at the end count as none. -/
def ofBytes (bytes : Bytes) : Word :=
  ⟨limbOfBytes ((bytes.drop 24).take 8), limbOfBytes ((bytes.drop 16).take 8),
    limbOfBytes ((bytes.drop 8).take 8), limbOfBytes (bytes.take 8)⟩

/-- A sequence of bytes brought to the length 32: zeros are put in front of a short one, and a long
one keeps its last bytes. -/
def alignRight (bytes : Bytes) : Bytes :=
  List.replicate (32 - bytes.length) 0 ++ bytes.drop (bytes.length - 32)

/-- The word that a sequence of bytes of any length writes; of a long one the last 32 bytes. -/
def ofSlice (bytes : Bytes) : Word := ofBytes (alignRight bytes)

/-- The word of an address. -/
def ofAddress (a : Address) : Word := ofSlice a.bytes

/-- The word that starts at an offset of `data`, with zeros beyond its end. -/
def loadPadded (data : Bytes) (offset : Word) : Word :=
  match offset.index? with
  | some start =>
    if start < data.length then
      let available := (data.drop start).take 32
      ofBytes (available ++ List.replicate (32 - available.length) 0)
    else zero
  | none => zero

/-! ## Order and bits -/

/-- The numeric order, decided by the most significant limb in which two words differ. -/
def compare (a b : Word) : Ordering :=
  (Ord.compare a.limb3 b.limb3).then <| (Ord.compare a.limb2 b.limb2).then <|
    (Ord.compare a.limb1 b.limb1).then (Ord.compare a.limb0 b.limb0)

/-- Applies an operation to each pair of limbs. -/
def zipLimbs (f : UInt64 → UInt64 → UInt64) (a b : Word) : Word :=
  ⟨f a.limb0 b.limb0, f a.limb1 b.limb1, f a.limb2 b.limb2, f a.limb3 b.limb3⟩

/-- The bits that both words have. -/
def and : Word → Word → Word := zipLimbs (· &&& ·)

/-- The bits that one of the words has. -/
def or : Word → Word → Word := zipLimbs (· ||| ·)

/-- The bits that exactly one of the words has. -/
def xor : Word → Word → Word := zipLimbs (· ^^^ ·)

/-- The bits that the word does not have. -/
def not (w : Word) : Word := ⟨~~~w.limb0, ~~~w.limb1, ~~~w.limb2, ~~~w.limb3⟩

end Word

end EvmDispatch
