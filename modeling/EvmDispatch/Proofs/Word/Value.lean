import EvmDispatch.Word.Basic
import Mathlib.Algebra.GroupWithZero.Nat

/-!
# Words and their values

A word is determined by its value, which is below `2 ^ 256`, and every such number is the value of a
word. Laws about words are stated of values, where the limbs no longer show.
-/

namespace EvmDispatch.Word

theorem toNat_lt (w : Word) : w.toNat < 2 ^ 256 := by
  have h0 := w.limb0.toNat_lt
  have h1 := w.limb1.toNat_lt
  have h2 := w.limb2.toNat_lt
  have h3 := w.limb3.toNat_lt
  unfold toNat limbValues
  omega

/-- Words with the same value are the same, limb by limb. -/
theorem toNat_injective {a b : Word} (h : a.toNat = b.toNat) : a = b := by
  have ha0 := a.limb0.toNat_lt
  have ha1 := a.limb1.toNat_lt
  have ha2 := a.limb2.toNat_lt
  have hb0 := b.limb0.toNat_lt
  have hb1 := b.limb1.toNat_lt
  have hb2 := b.limb2.toNat_lt
  unfold toNat limbValues at h
  ext1 <;> apply UInt64.toNat_inj.mp <;> omega

theorem toNat_inj {a b : Word} : a.toNat = b.toNat ↔ a = b :=
  ⟨toNat_injective, fun h => h ▸ rfl⟩

theorem toNat_zero : zero.toNat = 0 := rfl

theorem toNat_ofBool (b : Bool) : (ofBool b).toNat = if b then 1 else 0 := by
  cases b <;> rfl

theorem toNat_ofNat (n : Nat) : (ofNat n).toNat = n % 2 ^ 256 := by
  simp only [toNat, ofNat, limbValues, UInt64.toNat_ofNat']
  omega

theorem isZero_eq (w : Word) : w.isZero = decide (w.toNat = 0) := by
  rw [Bool.eq_iff_iff, isZero_iff, decide_eq_true_iff, ← toNat_inj, toNat_zero]

/-! ## Offsets and sizes -/

theorem index?_of_lt {w : Word} (h : w.toNat < 2 ^ 64) : w.index? = some w.toNat := by
  have h0 := w.limb0.toNat_lt
  unfold toNat limbValues at h
  have h1 : w.limb1 = 0 := by
    apply UInt64.toNat_inj.mp
    rw [UInt64.toNat_zero]
    omega
  have h2 : w.limb2 = 0 := by
    apply UInt64.toNat_inj.mp
    rw [UInt64.toNat_zero]
    omega
  have h3 : w.limb3 = 0 := by
    apply UInt64.toNat_inj.mp
    rw [UInt64.toNat_zero]
    omega
  simp [index?, toNat, h1, h2, h3]

/-- A word that is no index does not fit into its lowest limb. -/
theorem le_of_index?_eq_none {w : Word} (h : w.index? = none) : 2 ^ 64 ≤ w.toNat := by
  refine Nat.le_of_not_lt fun hlt => ?_
  rw [index?_of_lt hlt] at h
  cases h

theorem lt_of_index? {w : Word} {n : Nat} (h : w.index? = some n) : n < 2 ^ 64 := by
  unfold index? at h
  split at h
  · cases h
    exact w.limb0.toNat_lt
  · cases h

/-- The offset or size of a word is its value, if that is a number of 64 bits. -/
theorem index?_eq (w : Word) : w.index? = if w.toNat < 2 ^ 64 then some w.toNat else none := by
  cases h : w.index? with
  | some n =>
    have hvalue := toNat_of_index? h
    have hlt := lt_of_index? h
    rw [if_pos (by omega), hvalue]
  | none => rw [if_neg (Nat.not_lt.mpr (le_of_index?_eq_none h))]

end EvmDispatch.Word
