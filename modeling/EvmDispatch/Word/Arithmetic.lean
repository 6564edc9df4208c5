import EvmDispatch.Word.Basic

/-!
# Arithmetic on words

Sums, differences and products modulo `2 ^ 256`, limb by limb. Carries and borrows are single bits;
in a product the part that is carried on is a limb of its own. A product of two limbs, plus a limb,
plus a carried limb is below `2 ^ 128`, so nothing beyond two limbs ever arises.
-/

namespace EvmDispatch.Word

/-- The sum of two limbs and a carry, with the carry into the next limb. -/
def addLimb (a b : UInt64) (carry : Bool) : UInt64 × Bool :=
  let sum := a + b
  let total := sum + carry.toUInt64
  (total, decide (sum < a) || decide (total < sum))

/-- The difference of two limbs and a borrow, with the borrow from the next limb. -/
def subLimb (a b : UInt64) (borrow : Bool) : UInt64 × Bool :=
  let diff := a - b
  let total := diff - borrow.toUInt64
  (total, decide (a < b) || decide (diff < borrow.toUInt64))

/-- The sum modulo `2 ^ 256`. -/
def add (a b : Word) : Word :=
  let s0 := addLimb a.limb0 b.limb0 false
  let s1 := addLimb a.limb1 b.limb1 s0.2
  let s2 := addLimb a.limb2 b.limb2 s1.2
  let s3 := addLimb a.limb3 b.limb3 s2.2
  ⟨s0.1, s1.1, s2.1, s3.1⟩

/-- The difference modulo `2 ^ 256`. -/
def sub (a b : Word) : Word :=
  let d0 := subLimb a.limb0 b.limb0 false
  let d1 := subLimb a.limb1 b.limb1 d0.2
  let d2 := subLimb a.limb2 b.limb2 d1.2
  let d3 := subLimb a.limb3 b.limb3 d2.2
  ⟨d0.1, d1.1, d2.1, d3.1⟩

/-- A product of two limbs, added to a limb of the result and to the limb carried so far. -/
def mulAdd (a b acc carry : UInt64) : Nat :=
  a.toNat * b.toNat + acc.toNat + carry.toNat

/-- The limb of the result and the limb to carry. -/
def mulLimb (a b acc carry : UInt64) : UInt64 × UInt64 :=
  let t := mulAdd a b acc carry
  (UInt64.ofNat t, UInt64.ofNat (t / limbValues))

/-- The product modulo `2 ^ 256`: one row per limb of `a`, added to the rows before it. What falls
beyond the fourth limb is left out. -/
def mul (a b : Word) : Word :=
  let p00 := mulLimb a.limb0 b.limb0 0 0
  let p01 := mulLimb a.limb0 b.limb1 0 p00.2
  let p02 := mulLimb a.limb0 b.limb2 0 p01.2
  let p03 := mulLimb a.limb0 b.limb3 0 p02.2
  let p10 := mulLimb a.limb1 b.limb0 p01.1 0
  let p11 := mulLimb a.limb1 b.limb1 p02.1 p10.2
  let p12 := mulLimb a.limb1 b.limb2 p03.1 p11.2
  let p20 := mulLimb a.limb2 b.limb0 p11.1 0
  let p21 := mulLimb a.limb2 b.limb1 p12.1 p20.2
  let p30 := mulLimb a.limb3 b.limb0 p21.1 0
  ⟨p00.1, p10.1, p20.1, p30.1⟩

/-! ## Shifts -/

/-- A limb shifted left, filled up with the highest bits of the limb below it. -/
def shiftLimbLeft (bits : Nat) (limb below : UInt64) : UInt64 :=
  if bits = 0 then limb
  else (limb <<< UInt64.ofNat bits) ||| (below >>> UInt64.ofNat (64 - bits))

/-- A limb shifted right, filled up with the lowest bits of the limb above it. -/
def shiftLimbRight (bits : Nat) (limb above : UInt64) : UInt64 :=
  if bits = 0 then limb
  else (limb >>> UInt64.ofNat bits) ||| (above <<< UInt64.ofNat (64 - bits))

/-- A shift to the left by fewer than 64 bits. -/
def shiftBitsLeft (bits : Nat) (w : Word) : Word :=
  ⟨shiftLimbLeft bits w.limb0 0, shiftLimbLeft bits w.limb1 w.limb0,
    shiftLimbLeft bits w.limb2 w.limb1, shiftLimbLeft bits w.limb3 w.limb2⟩

/-- A shift to the right by fewer than 64 bits. -/
def shiftBitsRight (bits : Nat) (w : Word) : Word :=
  ⟨shiftLimbRight bits w.limb0 w.limb1, shiftLimbRight bits w.limb1 w.limb2,
    shiftLimbRight bits w.limb2 w.limb3, shiftLimbRight bits w.limb3 0⟩

/-- A shift to the left by whole limbs. -/
def shiftLimbsLeft (w : Word) : Nat → Word
  | 0 => w
  | 1 => ⟨0, w.limb0, w.limb1, w.limb2⟩
  | 2 => ⟨0, 0, w.limb0, w.limb1⟩
  | 3 => ⟨0, 0, 0, w.limb0⟩
  | _ => zero

/-- A shift to the right by whole limbs. -/
def shiftLimbsRight (w : Word) : Nat → Word
  | 0 => w
  | 1 => ⟨w.limb1, w.limb2, w.limb3, 0⟩
  | 2 => ⟨w.limb2, w.limb3, 0, 0⟩
  | 3 => ⟨w.limb3, 0, 0, 0⟩
  | _ => zero

/-- The word shifted to the left. A shift by 256 bits or more leaves nothing. -/
def shiftLeft (w shift : Word) : Word :=
  match shift.index? with
  | some n => if n < 256 then shiftBitsLeft (n % 64) (w.shiftLimbsLeft (n / 64)) else zero
  | none => zero

/-- The word shifted to the right. A shift by 256 bits or more leaves nothing. -/
def shiftRight (w shift : Word) : Word :=
  match shift.index? with
  | some n => if n < 256 then shiftBitsRight (n % 64) (w.shiftLimbsRight (n / 64)) else zero
  | none => zero

end EvmDispatch.Word
