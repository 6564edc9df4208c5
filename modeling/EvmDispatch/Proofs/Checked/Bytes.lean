import EvmDispatch.Proofs.Checked.Limbs
import EvmDispatch.Proofs.Machine.Immediate
import Mathlib.Data.Nat.Digits.Defs

/-!
# Words, their bytes and their order

A word is held in limbs, the least significant first, and is given outside the machine as bytes, the
most significant first. Both are the digits of one number, in base `2 ^ 64` and in base 256. So a
word and its bytes determine each other, words are ordered as their numbers are, and the bytes of a
word that is read from data are those of the data, with zeros beyond their end.
-/

namespace EvmDispatch.Word

/-- The number whose digits in base 256 are some bytes, the most significant first. -/
def valueOfBytes (bytes : Bytes) : Nat := Nat.ofDigits 256 (bytes.reverse.map UInt8.toNat)

/-- The value that the checked word is read by is the one that is defined digit by digit. -/
theorem natOfBytes_eq_valueOfBytes (bytes : Bytes) : natOfBytes bytes = valueOfBytes bytes := by
  rw [valueOfBytes, Nat.ofDigits_eq_foldr, List.foldr_map, List.foldr_reverse, natOfBytes]
  congr 1
  funext n b
  exact Nat.add_comm _ _

/-- The bytes of a word are the digits of its value. -/
theorem valueOfBytes_toBytes (w : Word) : valueOfBytes w.toBytes = w.toNat := by
  rw [← natOfBytes_eq_valueOfBytes, natOfBytes_toBytes]

/-- Words, bytes and the order agree. A word is the number that its four limbs are the digits of, and
its 32 bytes are the digits of the same number; 32 bytes are those of exactly one word; of a sequence
of bytes of any length the last 32 write its word; words are compared as their numbers are; a word is
an offset or a size exactly if its number has 64 bits; and a word read from data has the bytes of the
data from its offset on, where those beyond the end are zeros, however large the offset is, as long
as the length of the data is a number of 64 bits. With checked operations all of these are the same:
no index or range is outside what it is taken from. -/
theorem bytes_and_order_exact :
    (∀ w : Word, w.toNat = Nat.ofDigits (2 ^ 64) ((Checked.limbs w).map UInt64.toNat) ∧
      Checked.toBytes w = .ok w.toBytes ∧ w.toBytes.length = 32 ∧
      valueOfBytes w.toBytes = w.toNat ∧ ofBytes w.toBytes = w) ∧
    (∀ bytes : Bytes, bytes.length = 32 → Checked.ofBytes bytes = .ok (ofBytes bytes) ∧
      (ofBytes bytes).toNat = valueOfBytes bytes ∧ (ofBytes bytes).toBytes = bytes) ∧
    (∀ bytes : Bytes, Checked.ofSlice bytes = .ok (ofSlice bytes) ∧
      (ofSlice bytes).toNat = valueOfBytes (bytes.drop (bytes.length - 32))) ∧
    (∀ a b : Word, a.compare b = Ord.compare a.toNat b.toNat) ∧
    (∀ w : Word, w.index? = if w.toNat < 2 ^ 64 then some w.toNat else none) ∧
    ∀ (data : Bytes) (offset : Word), data.length < 2 ^ 64 →
      Checked.loadPadded data offset = .ok (loadPadded data offset) ∧
        ∀ i < 32, (loadPadded data offset).toBytes[i]? =
          some (data[offset.toNat + i]?.getD 0) := by
  refine ⟨?_, ?_, ?_, compare_eq, index?_eq, ?_⟩
  · intro w
    exact ⟨rfl, Checked.toBytes_eq w, w.length_toBytes, valueOfBytes_toBytes w, ofBytes_toBytes w⟩
  · intro bytes h
    refine ⟨Checked.ofBytes_eq h, ?_, toBytes_ofBytes h⟩
    rw [toNat_ofBytes h, natOfBytes_eq_valueOfBytes]
  · intro bytes
    refine ⟨Checked.ofSlice_eq bytes, ?_⟩
    rw [toNat_ofSlice, natOfBytes_eq_valueOfBytes]
  · intro data offset h
    refine ⟨Checked.loadPadded_eq h offset, ?_⟩
    intro i hi
    rw [getElem?_toBytes _ hi, byte_loadPadded (Nat.le_of_lt h) offset hi]

/-- A word read across the end of the data, and one read at an offset that no index reaches. -/
theorem bytes_and_order_exact_window :
    let data : Bytes := [0x01, 0x02, 0x03]
    let beyond : Word := .ofNat (2 ^ 64 + 1)
    data.length < 2 ^ 64 ∧
      (loadPadded data (.ofNat 1)).toBytes[1]? = some 0x03 ∧
      (loadPadded data (.ofNat 1)).toBytes[2]? = some 0x00 ∧
      (loadPadded data beyond).toBytes[0]? = some 0x00 ∧
      (List.replicate 32 0xff : Bytes).length = 32 ∧
      (ofBytes (List.replicate 32 0xff)).toBytes = List.replicate 32 0xff := by
  intro data beyond
  have hdata : data.length < 2 ^ 64 := by decide
  have hlength : (List.replicate 32 0xff : Bytes).length = 32 := by decide
  obtain ⟨-, hbytes, -, -, -, hwindow⟩ := bytes_and_order_exact
  exact ⟨hdata, (hwindow data (.ofNat 1) hdata).2 1 (by decide),
    (hwindow data (.ofNat 1) hdata).2 2 (by decide), (hwindow data beyond hdata).2 0 (by decide),
    hlength, (hbytes _ hlength).2.2⟩

end EvmDispatch.Word
