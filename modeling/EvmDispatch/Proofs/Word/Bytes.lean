import EvmDispatch.Proofs.Word.Value
import Mathlib.Data.List.Induction
import Mathlib.Tactic.Ring

/-!
# Words and their bytes

A sequence of bytes writes a number in base 256. The 32 bytes of a word write its value, and 32
bytes are the bytes of the word that they write, so that reading and writing words are inverse to
each other. `Word.byte` names a byte of a word by its position.
-/

namespace EvmDispatch.Word

/-- A byte of a word, the most significant one at position 0 and the least significant at 31. -/
def byte (w : Word) (i : Nat) : UInt8 := UInt8.ofNat (w.toNat / 256 ^ (31 - i))

/-! ## Numbers in base 256 -/

theorem natOfBytes_concat (bytes : Bytes) (b : UInt8) :
    natOfBytes (bytes ++ [b]) = 256 * natOfBytes bytes + b.toNat := by
  simp [natOfBytes]

/-- Bytes in front count for more, by as many digits as follow them. -/
theorem natOfBytes_append (xs ys : Bytes) :
    natOfBytes (xs ++ ys) = natOfBytes xs * 256 ^ ys.length + natOfBytes ys := by
  induction ys using List.reverseRecOn with
  | nil => simp [natOfBytes]
  | append_singleton ys b ih =>
    rw [← List.append_assoc, natOfBytes_concat, natOfBytes_concat, ih, List.length_append,
      List.length_singleton]
    ring

theorem natOfBytes_lt (bytes : Bytes) : natOfBytes bytes < 256 ^ bytes.length := by
  induction bytes using List.reverseRecOn with
  | nil => simp [natOfBytes]
  | append_singleton bytes b ih =>
    have hb := b.toNat_lt
    rw [natOfBytes_concat, List.length_append, List.length_singleton, Nat.pow_succ]
    omega

theorem natOfBytes_replicate_zero (n : Nat) : natOfBytes (List.replicate n 0) = 0 := by
  induction n with
  | zero => rfl
  | succ n ih =>
    rw [List.replicate_succ', natOfBytes_concat, ih]
    rfl

/-- The bytes are the digits of the number that they write. -/
theorem getElem?_eq_digit {bytes : Bytes} {i : Nat} (h : i < bytes.length) :
    bytes[i]? = some (UInt8.ofNat (natOfBytes bytes / 256 ^ (bytes.length - 1 - i))) := by
  induction bytes using List.reverseRecOn with
  | nil => simp at h
  | append_singleton bytes b ih =>
    have hb := b.toNat_lt
    rw [List.length_append, List.length_singleton] at h ⊢
    rw [natOfBytes_concat]
    by_cases hlast : i = bytes.length
    · subst hlast
      simp only [List.getElem?_concat_length, Nat.add_sub_cancel, Nat.sub_self, Nat.pow_zero,
        Nat.div_one, Option.some.injEq]
      apply UInt8.toNat_inj.mp
      rw [UInt8.toNat_ofNat']
      omega
    · have hi : i < bytes.length := by omega
      have hexponent : bytes.length + 1 - 1 - i = bytes.length - 1 - i + 1 := by omega
      rw [List.getElem?_append_left hi, ih hi, hexponent, Nat.pow_succ', ← Nat.div_div_eq_div_mul,
        Nat.mul_add_div (by omega), Nat.div_eq_of_lt hb, Nat.add_zero]

/-- The digits of a number write it, as far as they reach. -/
theorem natOfBytes_digits (n k : Nat) :
    natOfBytes ((List.range k).map fun i => UInt8.ofNat (n / 256 ^ (k - 1 - i))) = n % 256 ^ k := by
  induction k generalizing n with
  | zero => simp [natOfBytes, Nat.mod_one]
  | succ k ih =>
    have hfront : (List.range k).map (fun i => UInt8.ofNat (n / 256 ^ (k + 1 - 1 - i))) =
        (List.range k).map fun i => UInt8.ofNat (n / 256 / 256 ^ (k - 1 - i)) := by
      apply List.map_congr_left
      intro i hi
      have hi := List.mem_range.mp hi
      have hexponent : k + 1 - 1 - i = k - 1 - i + 1 := by omega
      rw [hexponent, Nat.pow_succ', Nat.div_div_eq_div_mul]
    have hmod : n % 256 ^ (k + 1) = n % 256 + 256 * (n / 256 % 256 ^ k) := by
      rw [Nat.pow_succ', Nat.mod_mul]
    rw [List.range_succ, List.map_append, hfront, List.map_singleton, natOfBytes_concat, ih,
      Nat.add_sub_cancel, Nat.sub_self, Nat.pow_zero, Nat.div_one, UInt8.toNat_ofNat', hmod,
      Nat.add_comm]

/-! ## From bytes to words -/

theorem limbOfBytes_concat (bytes : Bytes) (b : UInt8) :
    limbOfBytes (bytes ++ [b]) = (limbOfBytes bytes <<< 8) ||| b.toUInt64 := by
  simp [limbOfBytes]

/-- Eight bytes fit into a limb. -/
theorem toNat_limbOfBytes {bytes : Bytes} (h : bytes.length ≤ 8) :
    (limbOfBytes bytes).toNat = natOfBytes bytes := by
  induction bytes using List.reverseRecOn with
  | nil => rfl
  | append_singleton bytes b ih =>
    have hb : b.toNat < 2 ^ 8 := b.toNat_lt
    rw [List.length_append, List.length_singleton] at h
    have hpow : (256 : Nat) ^ bytes.length ≤ 256 ^ 7 := Nat.pow_le_pow_right (by omega) (by omega)
    have hlt := natOfBytes_lt bytes
    have height : (8 : UInt64).toNat % 64 = 8 := rfl
    have hfits : natOfBytes bytes <<< 8 % 2 ^ 64 = natOfBytes bytes <<< 8 := by
      rw [Nat.shiftLeft_eq]
      omega
    rw [limbOfBytes_concat, natOfBytes_concat, UInt64.toNat_or, UInt64.toNat_shiftLeft,
      ih (by omega), UInt8.toNat_toUInt64, height, hfits, ← Nat.shiftLeft_add_eq_or_of_lt hb,
      Nat.shiftLeft_eq]
    omega

theorem toNat_ofBytes {bytes : Bytes} (h : bytes.length = 32) :
    (ofBytes bytes).toNat = natOfBytes bytes := by
  -- the bytes of each limb, the most significant limb first
  have hcut : ∀ n, bytes.drop n = (bytes.drop n).take 8 ++ bytes.drop (n + 8) := by
    intro n
    rw [← List.drop_drop, List.take_append_drop]
  have hend : bytes.drop (24 + 8) = [] := List.drop_eq_nil_of_le (Nat.le_of_eq h)
  have hsplit : bytes = bytes.take 8 ++ ((bytes.drop 8).take 8 ++
      ((bytes.drop 16).take 8 ++ (bytes.drop 24).take 8)) := by
    rw [← List.append_nil ((bytes.drop 24).take 8), ← hend, ← hcut 24, ← hcut 16, ← hcut 8]
    exact (List.take_append_drop 8 bytes).symm
  have hlength : ∀ n, n + 8 ≤ 32 → ((bytes.drop n).take 8).length = 8 := by
    intro n hn
    rw [List.length_take, List.length_drop]
    omega
  have h0 : (bytes.take 8).length = 8 := hlength 0 (by omega)
  have h8 := hlength 8 (by omega)
  have h16 := hlength 16 (by omega)
  have h24 := hlength 24 (by omega)
  conv_rhs => rw [hsplit]
  simp only [natOfBytes_append, List.length_append, h8, h16, h24]
  unfold toNat ofBytes limbValues
  rw [toNat_limbOfBytes (Nat.le_of_eq h0), toNat_limbOfBytes (Nat.le_of_eq h8),
    toNat_limbOfBytes (Nat.le_of_eq h16), toNat_limbOfBytes (Nat.le_of_eq h24)]
  omega

theorem length_alignRight (bytes : Bytes) : (alignRight bytes).length = 32 := by
  rw [alignRight, List.length_append, List.length_replicate, List.length_drop]
  omega

/-- Of a long sequence of bytes the last 32 count, and a short one counts as it is. -/
theorem toNat_ofSlice (bytes : Bytes) :
    (ofSlice bytes).toNat = natOfBytes (bytes.drop (bytes.length - 32)) := by
  rw [ofSlice, toNat_ofBytes (length_alignRight bytes), alignRight, natOfBytes_append,
    natOfBytes_replicate_zero, Nat.zero_mul, Nat.zero_add]

theorem ofSlice_eq_ofBytes {bytes : Bytes} (h : bytes.length = 32) :
    ofSlice bytes = ofBytes bytes := by
  simp [ofSlice, alignRight, h]

/-- Bytes are counted from the most significant one on. -/
theorem getElem?_eq_byte {bytes : Bytes} (h : bytes.length = 32) {i : Nat} (hi : i < 32) :
    bytes[i]? = some ((ofBytes bytes).byte i) := by
  rw [getElem?_eq_digit (by omega), byte, toNat_ofBytes h, h]

/-! ## From words to bytes -/

theorem natOfBytes_bytesOfLimb (limb : UInt64) : natOfBytes (bytesOfLimb limb) = limb.toNat := by
  have hlimb : limb.toNat < 256 ^ 8 := limb.toNat_lt
  have hdigits : bytesOfLimb limb =
      (List.range 8).map fun i => UInt8.ofNat (limb.toNat / 256 ^ (8 - 1 - i)) := by
    simp [bytesOfLimb, List.range, List.range.loop, ← UInt8.toNat_inj, Nat.shiftRight_eq_div_pow]
  rw [hdigits, natOfBytes_digits, Nat.mod_eq_of_lt hlimb]

theorem length_toBytes (w : Word) : w.toBytes.length = 32 := rfl

theorem natOfBytes_toBytes (w : Word) : natOfBytes w.toBytes = w.toNat := by
  have hlength : ∀ limb, (bytesOfLimb limb).length = 8 := fun _ => rfl
  simp only [toBytes, natOfBytes_append, natOfBytes_bytesOfLimb, hlength, toNat, limbValues]
  omega

theorem getElem?_toBytes (w : Word) {i : Nat} (h : i < 32) : w.toBytes[i]? = some (w.byte i) := by
  have hlength := w.length_toBytes
  rw [getElem?_eq_digit (by omega), natOfBytes_toBytes, hlength]
  rfl

theorem ofBytes_toBytes (w : Word) : ofBytes w.toBytes = w := by
  apply toNat_injective
  rw [toNat_ofBytes w.length_toBytes, natOfBytes_toBytes]

theorem toBytes_ofBytes {bytes : Bytes} (h : bytes.length = 32) :
    (ofBytes bytes).toBytes = bytes := by
  refine List.ext_getElem? fun i => ?_
  by_cases hi : i < 32
  · rw [getElem?_toBytes _ hi, getElem?_eq_byte h hi]
  · have hlength := (ofBytes bytes).length_toBytes
    rw [List.getElem?_eq_none (by omega), List.getElem?_eq_none (by omega)]

theorem byte_zero (i : Nat) : zero.byte i = 0 := by
  rw [byte, toNat_zero, Nat.zero_div]
  rfl

theorem lowByte_eq (w : Word) : w.lowByte = w.byte 31 := by
  apply UInt8.toNat_inj.mp
  simp [lowByte, byte, toNat, limbValues]

end EvmDispatch.Word
