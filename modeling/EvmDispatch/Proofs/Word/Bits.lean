import EvmDispatch.Proofs.Word.Value
import EvmDispatch.Word.Arithmetic
import Mathlib.Tactic.Ring

/-!
# Bits of words

Operations on the bits of words are the operations on the bits of their values, limb by limb. A
shift multiplies or divides the value by a power of two. What a limb loses in a shift its neighbour
gains.
-/

namespace EvmDispatch.Word

/-- Numbers of two digits are combined digit by digit. -/
theorem bitwise_digits {f : Bool → Bool → Bool} (hf : f false false = false)
    {n lo hi lo' hi' : Nat} (h : lo < 2 ^ n) (h' : lo' < 2 ^ n) :
    Nat.bitwise f (lo + 2 ^ n * hi) (lo' + 2 ^ n * hi') =
      Nat.bitwise f lo lo' + 2 ^ n * Nat.bitwise f hi hi' := by
  have hlo : Nat.bitwise f lo lo' < 2 ^ n := Nat.bitwise_lt_two_pow h h'
  apply Nat.eq_of_testBit_eq
  intro i
  rw [Nat.testBit_bitwise hf, Nat.add_comm lo, Nat.add_comm lo',
    Nat.add_comm (Nat.bitwise f lo lo'), Nat.testBit_two_pow_mul_add _ h,
    Nat.testBit_two_pow_mul_add _ h', Nat.testBit_two_pow_mul_add _ hlo]
  split <;> rw [Nat.testBit_bitwise hf]

/-- An operation on each pair of bits acts on the values in the same way. -/
theorem toNat_zipLimbs {op : UInt64 → UInt64 → UInt64} {f : Bool → Bool → Bool}
    (hf : f false false = false)
    (hop : ∀ a b, (op a b).toNat = Nat.bitwise f a.toNat b.toNat) (a b : Word) :
    (zipLimbs op a b).toNat = Nat.bitwise f a.toNat b.toNat := by
  have hbase : limbValues = 2 ^ 64 := rfl
  simp only [zipLimbs, toNat, hop, hbase]
  rw [bitwise_digits hf a.limb0.toNat_lt b.limb0.toNat_lt,
    bitwise_digits hf a.limb1.toNat_lt b.limb1.toNat_lt,
    bitwise_digits hf a.limb2.toNat_lt b.limb2.toNat_lt]

theorem toNat_and (a b : Word) : (a.and b).toNat = a.toNat &&& b.toNat :=
  toNat_zipLimbs rfl UInt64.toNat_and a b

theorem toNat_or (a b : Word) : (a.or b).toNat = a.toNat ||| b.toNat :=
  toNat_zipLimbs rfl UInt64.toNat_or a b

theorem toNat_xor (a b : Word) : (a.xor b).toNat = a.toNat ^^^ b.toNat :=
  toNat_zipLimbs rfl UInt64.toNat_xor a b

theorem toNat_not (w : Word) : w.not.toNat = w.toNat ^^^ (2 ^ 256 - 1) := by
  have hnot : w.not = w.xor ⟨-1, -1, -1, -1⟩ := by
    simp [not, xor, zipLimbs]
  rw [hnot, toNat_xor]
  rfl

/-! ## Shifts by fewer bits than a limb has -/

theorem two_pow_sub_mul {bits : Nat} (hbits : bits < 64) :
    (2 : Nat) ^ (64 - bits) * 2 ^ bits = 2 ^ 64 := by
  rw [← Nat.pow_add, Nat.sub_add_cancel (Nat.le_of_lt hbits)]

theorem toNat_amount {bits : Nat} (hbits : bits < 64) : (UInt64.ofNat bits).toNat % 64 = bits := by
  rw [UInt64.toNat_ofNat']
  omega

/-- A limb that is shifted to the left takes the highest bits of the one below. -/
theorem toNat_shiftLimbLeft {bits : Nat} (hbits : bits < 64) (limb below : UInt64) :
    (shiftLimbLeft bits limb below).toNat =
      limb.toNat % 2 ^ (64 - bits) * 2 ^ bits + below.toNat / 2 ^ (64 - bits) := by
  have hlimb := limb.toNat_lt
  have hbelow := below.toNat_lt
  unfold shiftLimbLeft
  by_cases hzero : bits = 0
  · rw [if_pos hzero, hzero]
    omega
  · have hpow : (2 : Nat) ^ 64 = 2 ^ (64 - bits) * 2 ^ bits := (two_pow_sub_mul hbits).symm
    have hamount := toNat_amount hbits
    have hrest : (UInt64.ofNat (64 - bits)).toNat % 64 = 64 - bits := toNat_amount (by omega)
    have hhigh : (limb <<< UInt64.ofNat bits).toNat = (limb.toNat % 2 ^ (64 - bits)) <<< bits := by
      rw [UInt64.toNat_shiftLeft, hamount, Nat.shiftLeft_eq, Nat.shiftLeft_eq, hpow,
        Nat.mul_mod_mul_right]
    have hlow : (below >>> UInt64.ofNat (64 - bits)).toNat = below.toNat / 2 ^ (64 - bits) := by
      rw [UInt64.toNat_shiftRight, hrest, Nat.shiftRight_eq_div_pow]
    have hlt : below.toNat / 2 ^ (64 - bits) < 2 ^ bits := by
      rw [Nat.div_lt_iff_lt_mul (Nat.two_pow_pos _), Nat.mul_comm, ← hpow]
      exact hbelow
    rw [if_neg hzero, UInt64.toNat_or, hhigh, hlow, ← Nat.shiftLeft_add_eq_or_of_lt hlt,
      Nat.shiftLeft_eq]

/-- A limb that is shifted to the right takes the lowest bits of the one above. -/
theorem toNat_shiftLimbRight {bits : Nat} (hbits : bits < 64) (limb above : UInt64) :
    (shiftLimbRight bits limb above).toNat =
      limb.toNat / 2 ^ bits + above.toNat % 2 ^ bits * 2 ^ (64 - bits) := by
  have hlimb := limb.toNat_lt
  unfold shiftLimbRight
  by_cases hzero : bits = 0
  · rw [if_pos hzero, hzero]
    omega
  · have hpow : (2 : Nat) ^ 64 = 2 ^ bits * 2 ^ (64 - bits) := by
      rw [Nat.mul_comm, two_pow_sub_mul hbits]
    have hamount := toNat_amount hbits
    have hrest : (UInt64.ofNat (64 - bits)).toNat % 64 = 64 - bits := toNat_amount (by omega)
    have hlow : (limb >>> UInt64.ofNat bits).toNat = limb.toNat / 2 ^ bits := by
      rw [UInt64.toNat_shiftRight, hamount, Nat.shiftRight_eq_div_pow]
    have hhigh : (above <<< UInt64.ofNat (64 - bits)).toNat =
        (above.toNat % 2 ^ bits) <<< (64 - bits) := by
      rw [UInt64.toNat_shiftLeft, hrest, Nat.shiftLeft_eq, Nat.shiftLeft_eq, hpow,
        Nat.mul_mod_mul_right]
    have hlt : limb.toNat / 2 ^ bits < 2 ^ (64 - bits) := by
      rw [Nat.div_lt_iff_lt_mul (Nat.two_pow_pos _), Nat.mul_comm, ← hpow]
      exact hlimb
    rw [if_neg hzero, UInt64.toNat_or, hhigh, hlow, Nat.or_comm,
      ← Nat.shiftLeft_add_eq_or_of_lt hlt, Nat.shiftLeft_eq, Nat.add_comm]

/-- What a limb keeps of its bits when it is shifted left, and what goes to the limb above it. -/
theorem shiftUp_limb {k k' : Nat} (h : k' * k = 2 ^ 64) (limb : Nat) :
    limb * k = 2 ^ 64 * (limb / k') + limb % k' * k := by
  have hsplit := Nat.div_add_mod limb k'
  calc limb * k = (k' * (limb / k') + limb % k') * k := by rw [hsplit]
    _ = k' * k * (limb / k') + limb % k' * k := by ring
    _ = 2 ^ 64 * (limb / k') + limb % k' * k := by rw [h]

theorem toNat_shiftBitsLeft {bits : Nat} (hbits : bits < 64) (w : Word) :
    (shiftBitsLeft bits w).toNat = w.toNat * 2 ^ bits % 2 ^ 256 := by
  have hlt := (shiftBitsLeft bits w).toNat_lt
  have hpow := two_pow_sub_mul hbits
  have h0 := shiftUp_limb hpow w.limb0.toNat
  have h1 := shiftUp_limb hpow w.limb1.toNat
  have h2 := shiftUp_limb hpow w.limb2.toNat
  have h3 := shiftUp_limb hpow w.limb3.toNat
  have hexpand : w.toNat * 2 ^ bits =
      w.limb0.toNat * 2 ^ bits + 2 ^ 64 * (w.limb1.toNat * 2 ^ bits +
        2 ^ 64 * (w.limb2.toNat * 2 ^ bits + 2 ^ 64 * (w.limb3.toNat * 2 ^ bits))) := by
    simp only [toNat, limbValues]
    ring
  have hnone : (0 : UInt64).toNat / 2 ^ (64 - bits) = 0 := Nat.zero_div _
  rw [hexpand]
  simp only [toNat, shiftBitsLeft, toNat_shiftLimbLeft hbits, limbValues, hnone] at hlt ⊢
  omega

/-- What a limb keeps of its bits when it is shifted right, and what goes to the limb below it. -/
theorem shiftDown_limb {k k' : Nat} (h : k' * k = 2 ^ 64) (limb : Nat) :
    limb / k * k + limb % k = limb ∧ limb % k * (k' * k) = 2 ^ 64 * (limb % k) := by
  refine ⟨Nat.div_add_mod' limb k, ?_⟩
  rw [h, Nat.mul_comm]

theorem toNat_shiftBitsRight {bits : Nat} (hbits : bits < 64) (w : Word) :
    (shiftBitsRight bits w).toNat = w.toNat / 2 ^ bits := by
  have hpow := two_pow_sub_mul hbits
  obtain ⟨h0, -⟩ := shiftDown_limb hpow w.limb0.toNat
  obtain ⟨h1, h1'⟩ := shiftDown_limb hpow w.limb1.toNat
  obtain ⟨h2, h2'⟩ := shiftDown_limb hpow w.limb2.toNat
  obtain ⟨h3, h3'⟩ := shiftDown_limb hpow w.limb3.toNat
  have hnone : (0 : UInt64).toNat % 2 ^ bits = 0 := Nat.zero_mod _
  have hrest := Nat.mod_lt w.limb0.toNat (Nat.two_pow_pos bits)
  have hsum : w.toNat = w.limb0.toNat % 2 ^ bits + (shiftBitsRight bits w).toNat * 2 ^ bits := by
    simp only [toNat, shiftBitsRight, toNat_shiftLimbRight hbits, limbValues, hnone, Nat.add_mul,
      Nat.mul_assoc _ _ (2 ^ bits)]
    omega
  rw [hsum, Nat.add_mul_div_right _ _ (Nat.two_pow_pos bits), Nat.div_eq_of_lt hrest, Nat.zero_add]

/-! ## Shifts by any number of bits -/

theorem toNat_shiftLimbsLeft (w : Word) {n : Nat} (hn : n < 4) :
    (w.shiftLimbsLeft n).toNat = w.toNat * 2 ^ (64 * n) % 2 ^ 256 := by
  have h0 := w.limb0.toNat_lt
  have h1 := w.limb1.toNat_lt
  have h2 := w.limb2.toNat_lt
  have h3 := w.limb3.toNat_lt
  obtain rfl | rfl | rfl | rfl : n = 0 ∨ n = 1 ∨ n = 2 ∨ n = 3 := by omega
  all_goals
    simp only [shiftLimbsLeft, toNat, limbValues, UInt64.toNat_zero]
    omega

theorem toNat_shiftLimbsRight (w : Word) {n : Nat} (hn : n < 4) :
    (w.shiftLimbsRight n).toNat = w.toNat / 2 ^ (64 * n) := by
  have h0 := w.limb0.toNat_lt
  have h1 := w.limb1.toNat_lt
  have h2 := w.limb2.toNat_lt
  have h3 := w.limb3.toNat_lt
  obtain rfl | rfl | rfl | rfl : n = 0 ∨ n = 1 ∨ n = 2 ∨ n = 3 := by omega
  all_goals
    simp only [shiftLimbsRight, toNat, limbValues, UInt64.toNat_zero]
    omega

theorem two_pow_limbs_mul_bits (n : Nat) : 2 ^ (64 * (n / 64)) * 2 ^ (n % 64) = 2 ^ n := by
  rw [← Nat.pow_add, Nat.div_add_mod]

theorem toNat_shiftLeft (w shift : Word) :
    (w.shiftLeft shift).toNat = w.toNat * 2 ^ shift.toNat % 2 ^ 256 := by
  have hover : 256 ≤ shift.toNat → w.toNat * 2 ^ shift.toNat % 2 ^ 256 = 0 := fun h =>
    Nat.mod_eq_zero_of_dvd (Dvd.dvd.mul_left (Nat.pow_dvd_pow 2 h) w.toNat)
  unfold shiftLeft
  cases hindex : shift.index? with
  | none =>
    have hshift := le_of_index?_eq_none hindex
    rw [hover (by omega)]
    rfl
  | some n =>
    obtain rfl := toNat_of_index? hindex
    simp only
    split
    · rename_i hlt
      rw [toNat_shiftBitsLeft (Nat.mod_lt _ (by omega)), toNat_shiftLimbsLeft _ (by omega),
        Nat.mod_mul_mod, Nat.mul_assoc, two_pow_limbs_mul_bits]
    · rename_i hge
      rw [hover (by omega)]
      rfl

theorem toNat_shiftRight (w shift : Word) :
    (w.shiftRight shift).toNat = w.toNat / 2 ^ shift.toNat := by
  have hover : 256 ≤ shift.toNat → w.toNat / 2 ^ shift.toNat = 0 := fun h =>
    Nat.div_eq_of_lt (Nat.lt_of_lt_of_le w.toNat_lt (Nat.pow_le_pow_right (by omega) h))
  unfold shiftRight
  cases hindex : shift.index? with
  | none =>
    have hshift := le_of_index?_eq_none hindex
    rw [hover (by omega)]
    rfl
  | some n =>
    obtain rfl := toNat_of_index? hindex
    simp only
    split
    · rename_i hlt
      rw [toNat_shiftBitsRight (Nat.mod_lt _ (by omega)), toNat_shiftLimbsRight _ (by omega),
        Nat.div_div_eq_div_mul, two_pow_limbs_mul_bits]
    · rename_i hge
      rw [hover (by omega)]
      rfl

end EvmDispatch.Word
