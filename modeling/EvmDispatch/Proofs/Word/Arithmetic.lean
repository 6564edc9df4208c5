import EvmDispatch.Proofs.Word.Value
import EvmDispatch.Word.Arithmetic
import Mathlib.Tactic.Ring
import Mathlib.Tactic.Set

/-!
# Sums, differences, products and the order of words

Each operation on a limb keeps what it is given: what it leaves in the limb and what it carries on
are together the sum, the difference or the product. Along the limbs this adds up to the operation
on values, where only what is carried out of the last limb is lost.
-/

namespace EvmDispatch.Word

theorem toNat_toUInt64 (b : Bool) : b.toUInt64.toNat = b.toNat := by
  cases b <;> rfl

/-- Nothing is lost between a limb and its carry. -/
theorem addLimb_value (a b : UInt64) (carry : Bool) :
    (addLimb a b carry).1.toNat + 2 ^ 64 * (addLimb a b carry).2.toNat =
      a.toNat + b.toNat + carry.toNat := by
  have ha := a.toNat_lt
  have hb := b.toNat_lt
  have hcarry := Bool.toNat_lt carry
  have hsum : (a + b).toNat = (a.toNat + b.toNat) % 2 ^ 64 := UInt64.toNat_add a b
  have htotal : (a + b + carry.toUInt64).toNat = ((a + b).toNat + carry.toNat) % 2 ^ 64 := by
    rw [UInt64.toNat_add, toNat_toUInt64]
  simp only [addLimb, UInt64.lt_iff_toNat_lt]
  rw [htotal, hsum]
  -- at most one of the two sums overflows
  by_cases h1 : (a.toNat + b.toNat) % 2 ^ 64 < a.toNat <;>
    by_cases h2 : ((a.toNat + b.toNat) % 2 ^ 64 + carry.toNat) % 2 ^ 64 <
      (a.toNat + b.toNat) % 2 ^ 64 <;>
    simp only [h1, h2, decide_true, decide_false, Bool.or_true, Bool.or_false, Bool.toNat_true,
      Bool.toNat_false] <;>
    omega

theorem toNat_add (a b : Word) : (a.add b).toNat = (a.toNat + b.toNat) % 2 ^ 256 := by
  have hlt := (a.add b).toNat_lt
  set s0 := addLimb a.limb0 b.limb0 false
  set s1 := addLimb a.limb1 b.limb1 s0.2
  set s2 := addLimb a.limb2 b.limb2 s1.2
  set s3 := addLimb a.limb3 b.limb3 s2.2
  have h0 : s0.1.toNat + 2 ^ 64 * s0.2.toNat = a.limb0.toNat + b.limb0.toNat + 0 :=
    addLimb_value _ _ _
  have h1 : s1.1.toNat + 2 ^ 64 * s1.2.toNat = a.limb1.toNat + b.limb1.toNat + s0.2.toNat :=
    addLimb_value _ _ _
  have h2 : s2.1.toNat + 2 ^ 64 * s2.2.toNat = a.limb2.toNat + b.limb2.toNat + s1.2.toNat :=
    addLimb_value _ _ _
  have h3 : s3.1.toNat + 2 ^ 64 * s3.2.toNat = a.limb3.toNat + b.limb3.toNat + s2.2.toNat :=
    addLimb_value _ _ _
  have hadd : a.add b = ⟨s0.1, s1.1, s2.1, s3.1⟩ := rfl
  rw [hadd] at hlt ⊢
  simp only [toNat, limbValues] at hlt ⊢
  omega

/-- Nothing is lost between a limb and its borrow. -/
theorem subLimb_value (a b : UInt64) (borrow : Bool) :
    (subLimb a b borrow).1.toNat + b.toNat + borrow.toNat =
      a.toNat + 2 ^ 64 * (subLimb a b borrow).2.toNat := by
  have ha := a.toNat_lt
  have hb := b.toNat_lt
  have hborrow := Bool.toNat_lt borrow
  have hdiff : (a - b).toNat = (2 ^ 64 - b.toNat + a.toNat) % 2 ^ 64 := UInt64.toNat_sub a b
  have htotal : (a - b - borrow.toUInt64).toNat =
      (2 ^ 64 - borrow.toNat + (a - b).toNat) % 2 ^ 64 := by
    rw [UInt64.toNat_sub, toNat_toUInt64]
  simp only [subLimb, UInt64.lt_iff_toNat_lt, toNat_toUInt64]
  rw [htotal, hdiff]
  by_cases h1 : a.toNat < b.toNat <;>
    by_cases h2 : (2 ^ 64 - b.toNat + a.toNat) % 2 ^ 64 < borrow.toNat <;>
    simp only [h1, h2, decide_true, decide_false, Bool.or_true, Bool.or_false, Bool.toNat_true,
      Bool.toNat_false] <;>
    omega

theorem toNat_sub (a b : Word) : (a.sub b).toNat = (2 ^ 256 - b.toNat + a.toNat) % 2 ^ 256 := by
  have hlt := (a.sub b).toNat_lt
  have hb := b.toNat_lt
  set d0 := subLimb a.limb0 b.limb0 false
  set d1 := subLimb a.limb1 b.limb1 d0.2
  set d2 := subLimb a.limb2 b.limb2 d1.2
  set d3 := subLimb a.limb3 b.limb3 d2.2
  have h0 : d0.1.toNat + b.limb0.toNat + 0 = a.limb0.toNat + 2 ^ 64 * d0.2.toNat :=
    subLimb_value _ _ _
  have h1 : d1.1.toNat + b.limb1.toNat + d0.2.toNat = a.limb1.toNat + 2 ^ 64 * d1.2.toNat :=
    subLimb_value _ _ _
  have h2 : d2.1.toNat + b.limb2.toNat + d1.2.toNat = a.limb2.toNat + 2 ^ 64 * d2.2.toNat :=
    subLimb_value _ _ _
  have h3 : d3.1.toNat + b.limb3.toNat + d2.2.toNat = a.limb3.toNat + 2 ^ 64 * d3.2.toNat :=
    subLimb_value _ _ _
  have hsub : a.sub b = ⟨d0.1, d1.1, d2.1, d3.1⟩ := rfl
  rw [hsub] at hlt ⊢
  simp only [toNat, limbValues] at hlt hb ⊢
  omega

/-! ## Products -/

/-- A product of limbs has room for two more limbs below `2 ^ 128`. -/
theorem mulAdd_lt (a b acc carry : UInt64) : mulAdd a b acc carry < 2 ^ 128 := by
  have ha := a.toNat_lt
  have hb := b.toNat_lt
  have hacc := acc.toNat_lt
  have hcarry := carry.toNat_lt
  have hproduct : a.toNat * b.toNat ≤ (2 ^ 64 - 1) * (2 ^ 64 - 1) :=
    Nat.mul_le_mul (by omega) (by omega)
  unfold mulAdd
  omega

/-- Two limbs are enough for a product and two carries. -/
theorem mulLimb_value (a b acc carry : UInt64) :
    (mulLimb a b acc carry).1.toNat + 2 ^ 64 * (mulLimb a b acc carry).2.toNat =
      a.toNat * b.toNat + acc.toNat + carry.toNat := by
  have hlt := mulAdd_lt a b acc carry
  simp only [mulLimb, UInt64.toNat_ofNat', limbValues]
  rw [← mulAdd]
  omega

theorem toNat_mul (a b : Word) : (a.mul b).toNat = a.toNat * b.toNat % 2 ^ 256 := by
  have hlt := (a.mul b).toNat_lt
  set p00 := mulLimb a.limb0 b.limb0 0 0
  set p01 := mulLimb a.limb0 b.limb1 0 p00.2
  set p02 := mulLimb a.limb0 b.limb2 0 p01.2
  set p03 := mulLimb a.limb0 b.limb3 0 p02.2
  set p10 := mulLimb a.limb1 b.limb0 p01.1 0
  set p11 := mulLimb a.limb1 b.limb1 p02.1 p10.2
  set p12 := mulLimb a.limb1 b.limb2 p03.1 p11.2
  set p20 := mulLimb a.limb2 b.limb0 p11.1 0
  set p21 := mulLimb a.limb2 b.limb1 p12.1 p20.2
  set p30 := mulLimb a.limb3 b.limb0 p21.1 0
  have h00 : p00.1.toNat + 2 ^ 64 * p00.2.toNat = a.limb0.toNat * b.limb0.toNat + 0 + 0 :=
    mulLimb_value _ _ _ _
  have h01 : p01.1.toNat + 2 ^ 64 * p01.2.toNat =
      a.limb0.toNat * b.limb1.toNat + 0 + p00.2.toNat := mulLimb_value _ _ _ _
  have h02 : p02.1.toNat + 2 ^ 64 * p02.2.toNat =
      a.limb0.toNat * b.limb2.toNat + 0 + p01.2.toNat := mulLimb_value _ _ _ _
  have h03 : p03.1.toNat + 2 ^ 64 * p03.2.toNat =
      a.limb0.toNat * b.limb3.toNat + 0 + p02.2.toNat := mulLimb_value _ _ _ _
  have h10 : p10.1.toNat + 2 ^ 64 * p10.2.toNat =
      a.limb1.toNat * b.limb0.toNat + p01.1.toNat + 0 := mulLimb_value _ _ _ _
  have h11 : p11.1.toNat + 2 ^ 64 * p11.2.toNat =
      a.limb1.toNat * b.limb1.toNat + p02.1.toNat + p10.2.toNat := mulLimb_value _ _ _ _
  have h12 : p12.1.toNat + 2 ^ 64 * p12.2.toNat =
      a.limb1.toNat * b.limb2.toNat + p03.1.toNat + p11.2.toNat := mulLimb_value _ _ _ _
  have h20 : p20.1.toNat + 2 ^ 64 * p20.2.toNat =
      a.limb2.toNat * b.limb0.toNat + p11.1.toNat + 0 := mulLimb_value _ _ _ _
  have h21 : p21.1.toNat + 2 ^ 64 * p21.2.toNat =
      a.limb2.toNat * b.limb1.toNat + p12.1.toNat + p20.2.toNat := mulLimb_value _ _ _ _
  have h30 : p30.1.toNat + 2 ^ 64 * p30.2.toNat =
      a.limb3.toNat * b.limb0.toNat + p21.1.toNat + 0 := mulLimb_value _ _ _ _
  -- by the power of `2 ^ 64` that each product of limbs counts with; six of them count too much
  have hexpand : a.toNat * b.toNat =
      a.limb0.toNat * b.limb0.toNat +
      2 ^ 64 * (a.limb0.toNat * b.limb1.toNat + a.limb1.toNat * b.limb0.toNat) +
      2 ^ 128 * (a.limb0.toNat * b.limb2.toNat + a.limb1.toNat * b.limb1.toNat +
        a.limb2.toNat * b.limb0.toNat) +
      2 ^ 192 * (a.limb0.toNat * b.limb3.toNat + a.limb1.toNat * b.limb2.toNat +
        a.limb2.toNat * b.limb1.toNat + a.limb3.toNat * b.limb0.toNat) +
      2 ^ 256 * (a.limb1.toNat * b.limb3.toNat + a.limb2.toNat * b.limb2.toNat +
        a.limb3.toNat * b.limb1.toNat + 2 ^ 64 * (a.limb2.toNat * b.limb3.toNat +
          a.limb3.toNat * b.limb2.toNat + 2 ^ 64 * (a.limb3.toNat * b.limb3.toNat))) := by
    simp only [toNat, limbValues]
    ring
  have hmul : a.mul b = ⟨p00.1, p10.1, p20.1, p30.1⟩ := rfl
  rw [hexpand]
  rw [hmul] at hlt ⊢
  simp only [toNat, limbValues] at hlt ⊢
  clear_value p00 p01 p02 p03 p10 p11 p12 p20 p21 p30
  omega

/-! ## The order -/

theorem compare_limb (a b : UInt64) : Ord.compare a b = Ord.compare a.toNat b.toNat := by
  simp only [Ord.compare, compareOfLessAndEq, UInt64.lt_iff_toNat_lt, ← UInt64.toNat_inj]

/-- Numbers of two digits are compared by the higher digit first. -/
theorem compare_digits {base lo hi lo' hi' : Nat} (h : lo < base) (h' : lo' < base) :
    Ord.compare (lo + base * hi) (lo' + base * hi') =
      (Ord.compare hi hi').then (Ord.compare lo lo') := by
  rcases Nat.lt_trichotomy hi hi' with hlt | rfl | hgt
  · have hmul : base * (hi + 1) ≤ base * hi' := Nat.mul_le_mul_left base hlt
    rw [Nat.mul_add] at hmul
    rw [Nat.compare_eq_lt.mpr hlt, Nat.compare_eq_lt.mpr (by omega)]
    rfl
  · have hhi : Ord.compare hi hi = .eq := Nat.compare_eq_eq.mpr rfl
    rw [hhi, Ordering.eq_then]
    rcases Nat.lt_trichotomy lo lo' with hlt | rfl | hgt
    · rw [Nat.compare_eq_lt.mpr hlt, Nat.compare_eq_lt.mpr (by omega)]
    · rw [Nat.compare_eq_eq.mpr rfl, Nat.compare_eq_eq.mpr rfl]
    · rw [Nat.compare_eq_gt.mpr hgt, Nat.compare_eq_gt.mpr (by omega)]
  · have hmul : base * (hi' + 1) ≤ base * hi := Nat.mul_le_mul_left base hgt
    rw [Nat.mul_add] at hmul
    rw [Nat.compare_eq_gt.mpr hgt, Nat.compare_eq_gt.mpr (by omega)]
    rfl

/-- Words are compared by their values. -/
theorem compare_eq (a b : Word) : a.compare b = Ord.compare a.toNat b.toNat := by
  have ha0 : a.limb0.toNat < limbValues := a.limb0.toNat_lt
  have ha1 : a.limb1.toNat < limbValues := a.limb1.toNat_lt
  have ha2 : a.limb2.toNat < limbValues := a.limb2.toNat_lt
  have hb0 : b.limb0.toNat < limbValues := b.limb0.toNat_lt
  have hb1 : b.limb1.toNat < limbValues := b.limb1.toNat_lt
  have hb2 : b.limb2.toNat < limbValues := b.limb2.toNat_lt
  unfold toNat
  rw [compare_digits ha0 hb0, compare_digits ha1 hb1, compare_digits ha2 hb2]
  simp only [compare, compare_limb, Ordering.then_assoc]

theorem compare_lt_eq (a b : Word) : (a.compare b == .lt) = decide (a.toNat < b.toNat) := by
  rw [Bool.eq_iff_iff, beq_iff_eq, decide_eq_true_iff, compare_eq, Nat.compare_eq_lt]

theorem compare_gt_eq (a b : Word) : (a.compare b == .gt) = decide (b.toNat < a.toNat) := by
  rw [Bool.eq_iff_iff, beq_iff_eq, decide_eq_true_iff, compare_eq, Nat.compare_eq_gt]

theorem beq_eq (a b : Word) : (a == b) = decide (a.toNat = b.toNat) := by
  rw [Bool.eq_iff_iff, beq_iff_eq, decide_eq_true_iff, toNat_inj]

end EvmDispatch.Word
