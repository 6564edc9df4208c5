import EvmDispatch.Proofs.Checked.Word
import EvmDispatch.Proofs.Word.Bits
import Mathlib.Data.Nat.ModEq

/-!
# Arithmetic limb by limb

A product is computed in rows, one for each limb of the first factor, and each row is added to what
the rows before it have left. Its limbs are computed with numbers of 128 bits, which never overflow.
The rows are the same for numbers of any length (`Checked.mulRows_eq`); what falls beyond the last
limb is lost, so that the product is exact modulo the number of values that so many limbs have. For
words of four limbs this is `Word.mul`.

A shift moves whole limbs and then bits from each limb to the next one. What is moved out of the
last limb is lost, and the shift is exact up to this (`Word.shifts_exact`).
-/

namespace EvmDispatch

/-- The number that a sequence of limbs stands for, the least significant limb first. -/
def Word.valueOfLimbs : List UInt64 → Nat
  | [] => 0
  | limb :: rest => limb.toNat + Word.limbValues * valueOfLimbs rest

namespace Checked

/-- A row of a product: the products of one limb with the others, each added to a limb of the result
so far and to the limb carried from the product before it. The row ends with the result. -/
def mulRow (a : UInt64) : List UInt64 → List UInt64 → UInt64 → Except Trap (List UInt64)
  | b :: bs, limb :: rest, carry => do
    let sum ← mulLimb a b limb carry
    return sum.1 :: (← mulRow a bs rest sum.2)
  | _, _, _ => return []

/-- The rows of a product. The first limb of the result is complete after the first row. -/
def mulRows : List UInt64 → List UInt64 → List UInt64 → Except Trap (List UInt64)
  | a :: as, bs, result => do
    match ← mulRow a bs result 0 with
    | limb :: rest => return limb :: (← mulRows as bs rest)
    | [] => return []
  | [], _, _ => return []

end Checked

namespace Word

theorem valueOfLimbs_cons (limb : UInt64) (rest : List UInt64) :
    valueOfLimbs (limb :: rest) = limb.toNat + limbValues * valueOfLimbs rest := rfl

theorem valueOfLimbs_limbs (w : Word) : valueOfLimbs (Checked.limbs w) = w.toNat := rfl

theorem valueOfLimbs_replicate (n : Nat) : valueOfLimbs (List.replicate n 0) = 0 := by
  induction n with
  | zero => rfl
  | succ n ih =>
    rw [List.replicate_succ, valueOfLimbs_cons, ih]
    rfl

/-- The value of some limbs is below the base to the power of their number. -/
theorem valueOfLimbs_lt (limbs : List UInt64) : valueOfLimbs limbs < limbValues ^ limbs.length := by
  induction limbs with
  | nil => exact Nat.one_pos
  | cons limb rest ih =>
    have hlimb : limb.toNat < limbValues := limb.toNat_lt
    have hrest : limbValues * (valueOfLimbs rest + 1) ≤ limbValues * limbValues ^ rest.length :=
      Nat.mul_le_mul_left limbValues ih
    rw [valueOfLimbs_cons, List.length_cons, Nat.pow_succ']
    rw [Nat.mul_add] at hrest
    omega

/-- Limbs of the same number and value are the same. -/
theorem valueOfLimbs_injective {limbs limbs' : List UInt64} (hlength : limbs.length = limbs'.length)
    (h : valueOfLimbs limbs = valueOfLimbs limbs') : limbs = limbs' := by
  induction limbs generalizing limbs' with
  | nil => exact (List.length_eq_zero_iff.mp hlength.symm).symm
  | cons limb rest ih =>
    obtain ⟨limb', rest', rfl⟩ := List.exists_cons_of_length_eq_add_one hlength.symm
    have hlimb : limb.toNat < limbValues := limb.toNat_lt
    have hlimb' : limb'.toNat < limbValues := limb'.toNat_lt
    rw [valueOfLimbs_cons, valueOfLimbs_cons] at h
    have hlow : limb.toNat = limb'.toNat := by
      have hmod := congrArg (· % limbValues) h
      simpa [Nat.add_mul_mod_self_left, Nat.mod_eq_of_lt hlimb, Nat.mod_eq_of_lt hlimb'] using hmod
    have hhigh : valueOfLimbs rest = valueOfLimbs rest' := by
      rw [hlow] at h
      exact Nat.eq_of_mul_eq_mul_left (by decide) (Nat.add_left_cancel h)
    rw [UInt64.toNat_inj.mp hlow, ih (Nat.succ.inj hlength) hhigh]

/-- Values that are the same up to the limbs that are kept stay so behind a limb. -/
theorem modEq_behind (limb : Nat) {n value value' : Nat} (h : value ≡ value' [MOD limbValues ^ n]) :
    limb + limbValues * value ≡ limb + limbValues * value' [MOD limbValues ^ (n + 1)] := by
  rw [Nat.pow_succ']
  exact (h.mul_left' limbValues).add_left limb

end Word

namespace Checked

/-- A row never overflows, and adds the product of the limb to the result. -/
theorem mulRow_eq (a : UInt64) {bs result : List UInt64} (h : result.length ≤ bs.length)
    (carry : UInt64) :
    ∃ row, mulRow a bs result carry = .ok row ∧ row.length = result.length ∧
      Word.valueOfLimbs row ≡
        a.toNat * Word.valueOfLimbs bs + Word.valueOfLimbs result + carry.toNat
        [MOD Word.limbValues ^ result.length] := by
  -- the row is as long as the result, and each limb of it needs the carry of the one before
  induction result generalizing bs carry with
  | nil =>
    refine ⟨[], ?_, rfl, Nat.modEq_one⟩
    cases bs <;> rfl
  | cons limb rest ih =>
    obtain ⟨b, bs, rfl⟩ := List.exists_cons_of_length_pos (Nat.lt_of_lt_of_le (Nat.succ_pos _) h)
    obtain ⟨row, hrow, hlength, hvalue⟩ := ih (Nat.le_of_succ_le_succ h)
      (Word.mulLimb a b limb carry).2
    refine ⟨(Word.mulLimb a b limb carry).1 :: row, ?_, congrArg Nat.succ hlength, ?_⟩
    · rw [mulRow, mulLimb_eq, ok_bind, hrow]
      rfl
    · have hlimb : (Word.mulLimb a b limb carry).1.toNat +
          Word.limbValues * (Word.mulLimb a b limb carry).2.toNat =
            a.toNat * b.toNat + limb.toNat + carry.toNat := Word.mulLimb_value a b limb carry
      generalize Word.mulLimb a b limb carry = sum at hlimb hvalue ⊢
      calc Word.valueOfLimbs (sum.1 :: row)
        _ ≡ sum.1.toNat + Word.limbValues *
              (a.toNat * Word.valueOfLimbs bs + Word.valueOfLimbs rest + sum.2.toNat)
            [MOD Word.limbValues ^ (rest.length + 1)] := Word.modEq_behind _ hvalue
        _ = (sum.1.toNat + Word.limbValues * sum.2.toNat) + Word.limbValues *
              (a.toNat * Word.valueOfLimbs bs + Word.valueOfLimbs rest) := by ring
        _ = a.toNat * (b.toNat + Word.limbValues * Word.valueOfLimbs bs) +
              (limb.toNat + Word.limbValues * Word.valueOfLimbs rest) + carry.toNat := by
          rw [hlimb]
          ring

/-- The rows of a product never overflow either, and add the product to the result. -/
theorem mulRows_eq {as bs result : List UInt64} (h : as.length = result.length)
    (hbs : result.length ≤ bs.length) :
    ∃ product, mulRows as bs result = .ok product ∧ product.length = result.length ∧
      Word.valueOfLimbs product ≡
        Word.valueOfLimbs as * Word.valueOfLimbs bs + Word.valueOfLimbs result
        [MOD Word.limbValues ^ result.length] := by
  -- the first limb of a row is final, and the next row is added to the limbs behind it
  induction as generalizing result with
  | nil =>
    obtain rfl : result = [] := List.length_eq_zero_iff.mp h.symm
    exact ⟨[], rfl, rfl, Nat.modEq_one⟩
  | cons a as ih =>
    obtain ⟨row, hrow, hlength, hvalue⟩ := mulRow_eq a hbs 0
    obtain ⟨limb, rest, rfl⟩ : ∃ limb rest, row = limb :: rest := by
      refine List.exists_cons_of_length_pos ?_
      rw [hlength, ← h]
      exact Nat.succ_pos _
    have hrest : as.length = rest.length := by
      rw [List.length_cons] at h hlength
      omega
    obtain ⟨product, hproduct, hlength', hvalue'⟩ := ih hrest (by
      rw [List.length_cons] at hlength
      omega)
    refine ⟨limb :: product, ?_, ?_, ?_⟩
    · rw [mulRows, hrow, ok_bind]
      simp only [hproduct, ok_bind]
      rfl
    · rw [← hlength, List.length_cons, List.length_cons, hlength']
    · have hbehind := Word.modEq_behind limb.toNat hvalue'
      rw [← List.length_cons, hlength] at hbehind
      calc Word.valueOfLimbs (limb :: product)
        _ ≡ limb.toNat + Word.limbValues *
              (Word.valueOfLimbs as * Word.valueOfLimbs bs + Word.valueOfLimbs rest)
            [MOD Word.limbValues ^ result.length] := hbehind
        _ = Word.valueOfLimbs (limb :: rest) +
              Word.limbValues * (Word.valueOfLimbs as * Word.valueOfLimbs bs) := by
          rw [Word.valueOfLimbs_cons]
          ring
        _ ≡ a.toNat * Word.valueOfLimbs bs + Word.valueOfLimbs result + (0 : UInt64).toNat +
              Word.limbValues * (Word.valueOfLimbs as * Word.valueOfLimbs bs)
            [MOD Word.limbValues ^ result.length] := hvalue.add_right _
        _ = Word.valueOfLimbs (a :: as) * Word.valueOfLimbs bs + Word.valueOfLimbs result := by
          rw [Word.valueOfLimbs_cons, UInt64.toNat_zero]
          ring

/-- The product of words is what the rows come to. -/
theorem mulRows_limbs (a b : Word) :
    mulRows (limbs a) (limbs b) (List.replicate 4 0) = .ok (limbs (a.mul b)) := by
  have ha : (limbs a).length = (List.replicate 4 (0 : UInt64)).length := rfl
  have hb : (List.replicate 4 (0 : UInt64)).length ≤ (limbs b).length := Nat.le_refl 4
  obtain ⟨product, hproduct, hlength, hvalue⟩ := mulRows_eq ha hb
  have hlt := Word.valueOfLimbs_lt product
  rw [Word.valueOfLimbs_replicate, Word.valueOfLimbs_limbs, Word.valueOfLimbs_limbs,
    Nat.add_zero] at hvalue
  rw [hlength] at hlt
  have hlimbs : product.length = (limbs (a.mul b)).length := hlength
  have hmul : Word.valueOfLimbs product = Word.valueOfLimbs (limbs (a.mul b)) := by
    rw [Word.valueOfLimbs_limbs, Word.toNat_mul]
    exact (Nat.mod_eq_of_lt hlt).symm.trans hvalue
  rw [hproduct, Word.valueOfLimbs_injective hlimbs hmul]

end Checked

/-- Arithmetic on limbs is exact. Read as integers from their four limbs, the least significant
first, the sum, the difference and the product of any two words are those of the integers modulo
`2 ^ 256`; and the rows of the product, in which every number of 128 bits is checked, never overflow
and come to the product. -/
theorem Word.arithmetic_exact (a b : Word) :
    valueOfLimbs (Checked.limbs a) = a.toNat ∧
      (a.add b).toNat = (a.toNat + b.toNat) % 2 ^ 256 ∧
      ((a.sub b).toNat : Int) = ((a.toNat : Int) - b.toNat) % 2 ^ 256 ∧
      (a.mul b).toNat = a.toNat * b.toNat % 2 ^ 256 ∧
      Checked.mulRows (Checked.limbs a) (Checked.limbs b) (List.replicate 4 0) =
        .ok (Checked.limbs (a.mul b)) := by
  refine ⟨rfl, a.toNat_add b, ?_, a.toNat_mul b, Checked.mulRows_limbs a b⟩
  have hb := b.toNat_lt
  rw [a.toNat_sub b]
  omega

/-- Shifts on limbs are exact. Read as integers, a word shifted to the left is the product with the
power of two modulo `2 ^ 256`, and a word shifted to the right is the quotient rounded down. The
amount of the shift is any word, also one that does not fit into a limb. With checked operations the
shifts come to the same: no limb is shifted by as many bits as it has, and no limb is looked for
outside the word. -/
theorem Word.shifts_exact (a s : Word) :
    (a.shiftLeft s).toNat = a.toNat * 2 ^ s.toNat % 2 ^ 256 ∧
      (a.shiftRight s).toNat = a.toNat / 2 ^ s.toNat ∧
      Checked.shiftLeft a s = .ok (a.shiftLeft s) ∧
      Checked.shiftRight a s = .ok (a.shiftRight s) :=
  ⟨a.toNat_shiftLeft s, a.toNat_shiftRight s, Checked.shiftLeft_eq a s, Checked.shiftRight_eq a s⟩

/-- The checks are real: a limb cannot be shifted by as many bits as it has. -/
example (limb : UInt64) : Checked.shiftUp limb 64 = .error .overflow := rfl

end EvmDispatch
