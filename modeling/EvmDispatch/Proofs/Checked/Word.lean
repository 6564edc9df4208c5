import EvmDispatch.Machine.Execute
import EvmDispatch.Proofs.Word.Arithmetic
import EvmDispatch.Proofs.Word.Bytes

/-!
# Words with checked operations

The machine is meant to run where numbers have 64 bits, where an index or a range has to be inside
what it is taken from, and where a range is only overwritten by one of its length. An operation that
breaks these rules has no result, but a `Trap`. Here are the operations on words with every such
rule checked, under the names that they have without the checks. They never trap, and come to the
same.
-/

namespace EvmDispatch

/-- Why an operation has no result. -/
inductive Trap where
  /-- A number does not fit into its type. -/
  | overflow
  /-- An index or a range is not inside what it is taken from. -/
  | bounds
  /-- A range would be overwritten by one of another length. -/
  | lengths
  /-- A growth of the memory is refused after it has been priced. -/
  | growth
deriving DecidableEq, Repr

namespace Checked

/-! ## Rules -/

section Rules

variable {α : Type}

/-- An unsigned number of some bits. -/
def unsigned (bits n : Nat) : Except Trap Nat :=
  if n < 2 ^ bits then .ok n else .error .overflow

def signed64 (n : Int) : Except Trap Int :=
  if -2 ^ 63 ≤ n ∧ n < 2 ^ 63 then .ok n else .error .overflow

/-- The difference of two unsigned numbers. -/
def minus (a b : Nat) : Except Trap Nat := if b ≤ a then .ok (a - b) else .error .overflow

def item (data : List α) (i : Nat) : Except Trap α :=
  match data[i]? with
  | some a => .ok a
  | none => .error .bounds

/-- The elements from `start` up to `stop`. -/
def range (data : List α) (start stop : Nat) : Except Trap (List α) :=
  if start ≤ stop ∧ stop ≤ data.length then .ok ((data.drop start).take (stop - start))
  else .error .bounds

/-- The data with the elements from `start` up to `stop` overwritten. -/
def overwrite (data : List α) (start stop : Nat) (source : List α) : Except Trap (List α) :=
  if start ≤ stop ∧ stop ≤ data.length then
    if source.length = stop - start then .ok (data.take start ++ source ++ data.drop stop)
    else .error .lengths
  else .error .bounds

theorem ok_bind {β : Type} (a : α) (f : α → Except Trap β) :
    ((.ok a : Except Trap α) >>= f) = f a :=
  rfl

theorem unsigned_eq {bits n : Nat} (h : n < 2 ^ bits) : unsigned bits n = .ok n := if_pos h

theorem signed64_eq {n : Int} (h : -2 ^ 63 ≤ n ∧ n < 2 ^ 63) : signed64 n = .ok n := if_pos h

theorem minus_eq {a b : Nat} (h : b ≤ a) : minus a b = .ok (a - b) := if_pos h

theorem item_eq {data : List α} {i : Nat} {a : α} (h : data[i]? = some a) :
    item data i = .ok a := by
  rw [item, h]

theorem range_eq {data : List α} {start stop : Nat} (h : start ≤ stop)
    (hstop : stop ≤ data.length) :
    range data start stop = .ok ((data.drop start).take (stop - start)) :=
  if_pos ⟨h, hstop⟩

/-- A range that is cut off where the data end. -/
theorem range_min_eq (data : List α) (start size : Nat) :
    range data (min start data.length) (min (start + size) data.length) =
      .ok ((data.drop start).take size) := by
  rw [range_eq (by omega) (by omega)]
  by_cases hstart : start ≤ data.length
  · rw [Nat.min_eq_left hstart, Except.ok.injEq, List.take_eq_take_iff, List.length_drop]
    omega
  · rw [List.drop_eq_nil_of_le (by omega), List.drop_eq_nil_of_le (by omega), List.take_nil,
      List.take_nil]

theorem overwrite_eq {data source : List α} {start stop : Nat} (h : start ≤ stop)
    (hstop : stop ≤ data.length) (hlength : source.length = stop - start) :
    overwrite data start stop source = .ok (data.take start ++ source ++ data.drop stop) := by
  rw [overwrite, if_pos ⟨h, hstop⟩, if_pos hlength]

theorem overwrite_replicate_eq {n start stop : Nat} {a : α} {source : List α} (h : start ≤ stop)
    (hstop : stop ≤ n) (hlength : source.length = stop - start) :
    overwrite (List.replicate n a) start stop source =
      .ok (List.replicate start a ++ source ++ List.replicate (n - stop) a) := by
  rw [overwrite_eq h (by rw [List.length_replicate]; exact hstop) hlength, List.take_replicate,
    List.drop_replicate, Nat.min_eq_left (Nat.le_trans h hstop)]

end Rules

/-! ## Bytes -/

/-- The limb that a word has in the eight bytes that end `8 * i` bytes before its end. -/
def limbAt (bytes : Bytes) (i : Nat) : Except Trap UInt64 := do
  let stop ← minus 32 (8 * i)
  let chunk ← range bytes (← minus stop 8) stop
  return Word.limbOfBytes (← overwrite (List.replicate 8 0) 0 8 chunk)

def ofBytes (bytes : Bytes) : Except Trap Word := do
  return ⟨← limbAt bytes 0, ← limbAt bytes 1, ← limbAt bytes 2, ← limbAt bytes 3⟩

/-- The bytes of a word with those of one limb put in. -/
def putLimb (bytes : Bytes) (i : Nat) (limb : UInt64) : Except Trap Bytes := do
  let stop ← minus 32 (8 * i)
  overwrite bytes (← minus stop 8) stop (Word.bytesOfLimb limb)

def toBytes (w : Word) : Except Trap Bytes := do
  let bytes ← putLimb (List.replicate 32 0) 0 w.limb0
  let bytes ← putLimb bytes 1 w.limb1
  let bytes ← putLimb bytes 2 w.limb2
  putLimb bytes 3 w.limb3

def ofSlice (bytes : Bytes) : Except Trap Word := do
  let count := min bytes.length 32
  let start ← minus 32 count
  let source ← range bytes (← minus bytes.length count) bytes.length
  ofBytes (← overwrite (List.replicate 32 0) start 32 source)

def saturatingAdd (a b : Nat) : Nat := min (a + b) (2 ^ 64 - 1)

def loadPadded (data : Bytes) (offset : Word) : Except Trap Word :=
  match offset.index? with
  | some start =>
    if start < data.length then do
      let stop := min data.length (saturatingAdd start 32)
      let count ← minus stop start
      ofBytes (← overwrite (List.replicate 32 0) 0 count (← range data start stop))
    else .ok .zero
  | none => .ok .zero

theorem limbAt_eq {bytes : Bytes} (h : bytes.length = 32) {i : Nat} (hi : i < 4) :
    limbAt bytes i = .ok (Word.limbOfBytes ((bytes.drop (32 - 8 * i - 8)).take 8)) := by
  have hlength : ((bytes.drop (32 - 8 * i - 8)).take (32 - 8 * i - (32 - 8 * i - 8))).length =
      8 - 0 := by
    rw [List.length_take, List.length_drop]
    omega
  have hcount : 32 - 8 * i - (32 - 8 * i - 8) = 8 := by omega
  rw [limbAt, minus_eq (by omega), ok_bind, minus_eq (by omega), ok_bind,
    range_eq (by omega) (by omega), ok_bind, overwrite_eq (by omega) (by simp) hlength, ok_bind,
    hcount]
  simp [pure, Except.pure]

theorem ofBytes_eq {bytes : Bytes} (h : bytes.length = 32) :
    ofBytes bytes = .ok (Word.ofBytes bytes) := by
  rw [ofBytes, limbAt_eq h (by omega), limbAt_eq h (by omega), limbAt_eq h (by omega),
    limbAt_eq h (by omega)]
  rfl

theorem toBytes_eq (w : Word) : toBytes w = .ok w.toBytes := rfl

/-- At most 32 bytes are aligned to the right, and of more of them the last count. -/
theorem ofSlice_eq (bytes : Bytes) : ofSlice bytes = .ok (Word.ofSlice bytes) := by
  have hfirst : bytes.length - min bytes.length 32 = bytes.length - 32 := by omega
  have hzeros : 32 - min bytes.length 32 = 32 - bytes.length := by omega
  have hsource : (bytes.drop (bytes.length - 32)).take (bytes.length - (bytes.length - 32)) =
      bytes.drop (bytes.length - 32) :=
    List.take_of_length_le (by rw [List.length_drop])
  have hlength : (bytes.drop (bytes.length - 32)).length = 32 - (32 - bytes.length) := by
    rw [List.length_drop]
    omega
  rw [ofSlice, minus_eq (by omega), ok_bind, minus_eq (by omega), ok_bind, hfirst, hzeros,
    range_eq (by omega) (Nat.le_refl _), ok_bind, hsource,
    overwrite_replicate_eq (by omega) (Nat.le_refl _) hlength, ok_bind, Nat.sub_self,
    List.replicate_zero, List.append_nil]
  exact ofBytes_eq (Word.length_alignRight bytes)

/-- Call data can be read at any offset, even behind its end. -/
theorem loadPadded_eq {data : Bytes} (h : data.length < 2 ^ 64) (offset : Word) :
    loadPadded data offset = .ok (Word.loadPadded data offset) := by
  unfold loadPadded Word.loadPadded
  cases offset.index? with
  | none => rfl
  | some start =>
    by_cases hstart : start < data.length
    · have hstop : min data.length (saturatingAdd start 32) = min data.length (start + 32) := by
        unfold saturatingAdd
        omega
      have hcount : min data.length (start + 32) - start = ((data.drop start).take 32).length := by
        rw [List.length_take, List.length_drop]
        omega
      have hrange : range data start (min data.length (start + 32)) =
          .ok ((data.drop start).take 32) := by
        rw [← range_min_eq, Nat.min_eq_left (Nat.le_of_lt hstart), Nat.min_comm]
      simp only [if_pos hstart, hstop]
      rw [minus_eq (by omega), ok_bind, hrange, ok_bind, hcount,
        overwrite_replicate_eq (Nat.zero_le _) (List.length_take_le 32 _) rfl, ok_bind,
        List.replicate_zero, List.nil_append]
      apply ofBytes_eq
      rw [List.length_append, List.length_replicate]
      have hle := List.length_take_le 32 (data.drop start)
      omega
    · simp only [if_neg hstart]

/-! ## Products -/

/-- The limb of the result and the limb to carry, from numbers of 128 bits. -/
def mulLimb (a b acc carry : UInt64) : Except Trap (UInt64 × UInt64) := do
  let product ← unsigned 128 (a.toNat * b.toNat)
  let sum ← unsigned 128 (product + acc.toNat)
  let t ← unsigned 128 (sum + carry.toNat)
  return (UInt64.ofNat t, UInt64.ofNat (t / Word.limbValues))

def mul (a b : Word) : Except Trap Word := do
  let p00 ← mulLimb a.limb0 b.limb0 0 0
  let p01 ← mulLimb a.limb0 b.limb1 0 p00.2
  let p02 ← mulLimb a.limb0 b.limb2 0 p01.2
  let p03 ← mulLimb a.limb0 b.limb3 0 p02.2
  let p10 ← mulLimb a.limb1 b.limb0 p01.1 0
  let p11 ← mulLimb a.limb1 b.limb1 p02.1 p10.2
  let p12 ← mulLimb a.limb1 b.limb2 p03.1 p11.2
  let p20 ← mulLimb a.limb2 b.limb0 p11.1 0
  let p21 ← mulLimb a.limb2 b.limb1 p12.1 p20.2
  let p30 ← mulLimb a.limb3 b.limb0 p21.1 0
  return ⟨p00.1, p10.1, p20.1, p30.1⟩

theorem mulLimb_eq (a b acc carry : UInt64) :
    mulLimb a b acc carry = .ok (Word.mulLimb a b acc carry) := by
  have hlt := Word.mulAdd_lt a b acc carry
  unfold Word.mulAdd at hlt
  rw [mulLimb, unsigned_eq (by omega), ok_bind, unsigned_eq (by omega), ok_bind,
    unsigned_eq (by omega), ok_bind]
  rfl

/-- No product of limbs that a multiplication forms overflows. -/
theorem mul_eq (a b : Word) : mul a b = .ok (a.mul b) := by
  simp only [mul, mulLimb_eq, ok_bind]
  rfl

/-! ## Shifts -/

/-- The limbs of a word, the least significant first. -/
def limbs (w : Word) : List UInt64 := [w.limb0, w.limb1, w.limb2, w.limb3]

def shiftUp (limb : UInt64) (bits : Nat) : Except Trap UInt64 :=
  if bits < 64 then .ok (limb <<< UInt64.ofNat bits) else .error .overflow

def shiftDown (limb : UInt64) (bits : Nat) : Except Trap UInt64 :=
  if bits < 64 then .ok (limb >>> UInt64.ofNat bits) else .error .overflow

/-- The limb at `i` of a word that is shifted to the left by some limbs and some bits. -/
def leftLimb (w : Word) (count bits i : Nat) : Except Trap UInt64 :=
  if i < count then .ok 0
  else do
    let source ← minus i count
    let high ← shiftUp (← item (limbs w) source) bits
    if 0 < bits ∧ count < i then do
      let low ← shiftDown (← item (limbs w) (← minus source 1)) (← minus 64 bits)
      return high ||| low
    else return high

/-- The limb at `i` of a word that is shifted to the right by some limbs and some bits. -/
def rightLimb (w : Word) (count bits i : Nat) : Except Trap UInt64 := do
  if i < (← minus 4 count) then do
    let low ← shiftDown (← item (limbs w) (i + count)) bits
    if 0 < bits ∧ i + count + 1 < 4 then do
      let high ← shiftUp (← item (limbs w) (i + count + 1)) (← minus 64 bits)
      return low ||| high
    else return low
  else return 0

def ofLimbs (limb : Nat → Except Trap UInt64) : Except Trap Word := do
  return ⟨← limb 0, ← limb 1, ← limb 2, ← limb 3⟩

def shiftLeft (w shift : Word) : Except Trap Word :=
  match shift.index? with
  | some n => if n < 256 then ofLimbs (leftLimb w (n / 64) (n % 64)) else .ok .zero
  | none => .ok .zero

def shiftRight (w shift : Word) : Except Trap Word :=
  match shift.index? with
  | some n => if n < 256 then ofLimbs (rightLimb w (n / 64) (n % 64)) else .ok .zero
  | none => .ok .zero

theorem shiftUp_eq (limb : UInt64) {bits : Nat} (h : bits < 64) :
    shiftUp limb bits = .ok (limb <<< UInt64.ofNat bits) := if_pos h

theorem shiftDown_eq (limb : UInt64) {bits : Nat} (h : bits < 64) :
    shiftDown limb bits = .ok (limb >>> UInt64.ofNat bits) := if_pos h

theorem shiftLimbLeft_none (bits : Nat) (limb : UInt64) :
    Word.shiftLimbLeft bits limb 0 = limb <<< UInt64.ofNat bits := by
  unfold Word.shiftLimbLeft
  split
  · rename_i hzero
    rw [hzero]
    exact UInt64.shiftLeft_zero.symm
  · rw [UInt64.zero_shiftRight, UInt64.or_zero]

theorem shiftLimbRight_none (bits : Nat) (limb : UInt64) :
    Word.shiftLimbRight bits limb 0 = limb >>> UInt64.ofNat bits := by
  unfold Word.shiftLimbRight
  split
  · rename_i hzero
    rw [hzero]
    exact UInt64.shiftRight_zero.symm
  · rw [UInt64.zero_shiftLeft, UInt64.or_zero]

section Limbs

variable {w : Word} {count bits i : Nat} {limb neighbour : UInt64}

theorem leftLimb_of_lt (h : i < count) : leftLimb w count bits i = .ok 0 := if_pos h

theorem leftLimb_self (hbits : bits < 64) (hlimb : (limbs w)[0]? = some limb) :
    leftLimb w count bits count = .ok (Word.shiftLimbLeft bits limb 0) := by
  have hnone : ¬ (0 < bits ∧ count < count) := fun h => Nat.lt_irrefl count h.2
  rw [leftLimb, if_neg (Nat.lt_irrefl count), minus_eq (Nat.le_refl count), ok_bind, Nat.sub_self,
    item_eq hlimb, ok_bind, shiftUp_eq limb hbits, ok_bind, if_neg hnone, shiftLimbLeft_none]
  rfl

theorem leftLimb_of_gt (hi : count < i) (hbits : bits < 64)
    (hlimb : (limbs w)[i - count]? = some limb)
    (hbelow : (limbs w)[i - count - 1]? = some neighbour) :
    leftLimb w count bits i = .ok (Word.shiftLimbLeft bits limb neighbour) := by
  rw [leftLimb, if_neg (Nat.lt_asymm hi), minus_eq (Nat.le_of_lt hi), ok_bind, item_eq hlimb,
    ok_bind, shiftUp_eq limb hbits, ok_bind]
  by_cases hzero : bits = 0
  · have hnone : ¬ (0 < bits ∧ count < i) := fun h => Nat.ne_of_gt h.1 hzero
    rw [if_neg hnone, Word.shiftLimbLeft, if_pos hzero, hzero]
    exact congrArg Except.ok UInt64.shiftLeft_zero
  · have hsome : 0 < bits ∧ count < i := ⟨Nat.pos_of_ne_zero hzero, hi⟩
    rw [if_pos hsome, minus_eq (by omega), ok_bind, item_eq hbelow, ok_bind,
      minus_eq (Nat.le_of_lt hbits), ok_bind, shiftDown_eq neighbour (by omega), ok_bind,
      Word.shiftLimbLeft, if_neg hzero]
    rfl

theorem rightLimb_of_ge (hcount : count ≤ 4) (h : 4 - count ≤ i) :
    rightLimb w count bits i = .ok 0 := by
  rw [rightLimb, minus_eq hcount, ok_bind, if_neg (Nat.not_lt.mpr h)]
  rfl

theorem rightLimb_last (hi : i + count = 3) (hbits : bits < 64)
    (hlimb : (limbs w)[3]? = some limb) :
    rightLimb w count bits i = .ok (Word.shiftLimbRight bits limb 0) := by
  have hnone : ¬ (0 < bits ∧ i + count + 1 < 4) := by omega
  rw [rightLimb, minus_eq (by omega), ok_bind, if_pos (by omega), item_eq (hi ▸ hlimb), ok_bind,
    shiftDown_eq limb hbits, ok_bind, if_neg hnone, shiftLimbRight_none]
  rfl

theorem rightLimb_of_lt (hi : i + count < 3) (hbits : bits < 64)
    (hlimb : (limbs w)[i + count]? = some limb)
    (habove : (limbs w)[i + count + 1]? = some neighbour) :
    rightLimb w count bits i = .ok (Word.shiftLimbRight bits limb neighbour) := by
  rw [rightLimb, minus_eq (by omega), ok_bind, if_pos (by omega), item_eq hlimb, ok_bind,
    shiftDown_eq limb hbits, ok_bind]
  by_cases hzero : bits = 0
  · have hnone : ¬ (0 < bits ∧ i + count + 1 < 4) := fun h => Nat.ne_of_gt h.1 hzero
    rw [if_neg hnone, Word.shiftLimbRight, if_pos hzero, hzero]
    exact congrArg Except.ok UInt64.shiftRight_zero
  · have hsome : 0 < bits ∧ i + count + 1 < 4 := by omega
    rw [if_pos hsome, item_eq habove, ok_bind, minus_eq (Nat.le_of_lt hbits), ok_bind,
      shiftUp_eq neighbour (by omega), ok_bind, Word.shiftLimbRight, if_neg hzero]
    rfl

end Limbs

theorem leftLimbs_eq (w : Word) {count bits : Nat} (hcount : count < 4) (hbits : bits < 64) :
    ofLimbs (leftLimb w count bits) = .ok ((w.shiftLimbsLeft count).shiftBitsLeft bits) := by
  have hvoid : Word.shiftLimbLeft bits 0 0 = 0 := by
    rw [shiftLimbLeft_none, UInt64.zero_shiftLeft]
  obtain rfl | rfl | rfl | rfl : count = 0 ∨ count = 1 ∨ count = 2 ∨ count = 3 := by omega
  · rw [ofLimbs, leftLimb_self hbits rfl, leftLimb_of_gt (by omega) hbits rfl rfl,
      leftLimb_of_gt (by omega) hbits rfl rfl, leftLimb_of_gt (by omega) hbits rfl rfl]
    rfl
  · rw [ofLimbs, leftLimb_of_lt (by omega), leftLimb_self hbits rfl,
      leftLimb_of_gt (by omega) hbits rfl rfl, leftLimb_of_gt (by omega) hbits rfl rfl,
      Word.shiftBitsLeft, Word.shiftLimbsLeft, hvoid]
    rfl
  · rw [ofLimbs, leftLimb_of_lt (by omega), leftLimb_of_lt (by omega), leftLimb_self hbits rfl,
      leftLimb_of_gt (by omega) hbits rfl rfl, Word.shiftBitsLeft, Word.shiftLimbsLeft, hvoid]
    rfl
  · rw [ofLimbs, leftLimb_of_lt (by omega), leftLimb_of_lt (by omega), leftLimb_of_lt (by omega),
      leftLimb_self hbits rfl, Word.shiftBitsLeft, Word.shiftLimbsLeft, hvoid]
    rfl

theorem rightLimbs_eq (w : Word) {count bits : Nat} (hcount : count < 4) (hbits : bits < 64) :
    ofLimbs (rightLimb w count bits) = .ok ((w.shiftLimbsRight count).shiftBitsRight bits) := by
  have hvoid : Word.shiftLimbRight bits 0 0 = 0 := by
    rw [shiftLimbRight_none, UInt64.zero_shiftRight]
  obtain rfl | rfl | rfl | rfl : count = 0 ∨ count = 1 ∨ count = 2 ∨ count = 3 := by omega
  · rw [ofLimbs, rightLimb_of_lt (by omega) hbits rfl rfl, rightLimb_of_lt (by omega) hbits rfl rfl,
      rightLimb_of_lt (by omega) hbits rfl rfl, rightLimb_last (by omega) hbits rfl]
    rfl
  · rw [ofLimbs, rightLimb_of_lt (by omega) hbits rfl rfl, rightLimb_of_lt (by omega) hbits rfl rfl,
      rightLimb_last (by omega) hbits rfl, rightLimb_of_ge (by omega) (by omega),
      Word.shiftBitsRight, Word.shiftLimbsRight, hvoid]
    rfl
  · rw [ofLimbs, rightLimb_of_lt (by omega) hbits rfl rfl, rightLimb_last (by omega) hbits rfl,
      rightLimb_of_ge (by omega) (by omega), rightLimb_of_ge (by omega) (by omega),
      Word.shiftBitsRight, Word.shiftLimbsRight, hvoid]
    rfl
  · rw [ofLimbs, rightLimb_last (by omega) hbits rfl, rightLimb_of_ge (by omega) (by omega),
      rightLimb_of_ge (by omega) (by omega), rightLimb_of_ge (by omega) (by omega),
      Word.shiftBitsRight, Word.shiftLimbsRight, hvoid]
    rfl

theorem shiftLeft_eq (w shift : Word) : shiftLeft w shift = .ok (w.shiftLeft shift) := by
  unfold shiftLeft Word.shiftLeft
  cases shift.index? with
  | none => rfl
  | some n =>
    by_cases hn : n < 256
    · simp only [if_pos hn]
      exact leftLimbs_eq w (by omega) (by omega)
    · simp only [if_neg hn]

theorem shiftRight_eq (w shift : Word) : shiftRight w shift = .ok (w.shiftRight shift) := by
  unfold shiftRight Word.shiftRight
  cases shift.index? with
  | none => rfl
  | some n =>
    by_cases hn : n < 256
    · simp only [if_pos hn]
      exact rightLimbs_eq w (by omega) (by omega)
    · simp only [if_neg hn]

/-! ## Instructions with two operands -/

def eval : BinaryInstruction → Word → Word → Except Trap Word
  | .mul, a, b => mul a b
  | .shl, shift, a => shiftLeft a shift
  | .shr, shift, a => shiftRight a shift
  | op, a, b => .ok (op.eval a b)

/-- No operation on two words traps. -/
theorem eval_eq (op : BinaryInstruction) (a b : Word) : eval op a b = .ok (op.eval a b) := by
  cases op with
  | mul => exact mul_eq a b
  | shl => exact shiftLeft_eq b a
  | shr => exact shiftRight_eq b a
  | _ => rfl

end Checked

end EvmDispatch
