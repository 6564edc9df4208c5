import EvmDispatch.Machine.Execute
import EvmDispatch.Proofs.Word.Bytes

/-!
# The data of pushes and words of call data

A push takes its word from the code behind it. There are at most 32 such bytes, so that they write a
word; and the code may end among them, in which case the missing ones are zeros. A word of call data
is read in the same way, at an offset that may be far beyond the end.
-/

namespace EvmDispatch

/-- The `size` bytes from an offset on, with zeros for those that the data do not have. -/
def readPadded (data : Bytes) (offset size : Nat) : Bytes :=
  let available := (data.drop offset).take size
  available ++ List.replicate (size - available.length) 0

/-- Behind the end of the data there are zeros. -/
theorem getElem?_readPadded (data : Bytes) (offset : Nat) {size i : Nat} (h : i < size) :
    (readPadded data offset size)[i]? = some (data.getD (offset + i) 0) := by
  unfold readPadded
  by_cases hi : offset + i < data.length
  · have havailable : i < ((data.drop offset).take size).length := by
      rw [List.length_take, List.length_drop]
      omega
    rw [List.getElem?_append_left havailable, List.getElem?_take_of_lt h, List.getElem?_drop,
      List.getD_eq_getElem?_getD, List.getElem?_eq_getElem hi, Option.getD_some]
  · have havailable : ((data.drop offset).take size).length ≤ i := by
      rw [List.length_take, List.length_drop]
      omega
    have hzero : i - ((data.drop offset).take size).length <
        size - ((data.drop offset).take size).length := by omega
    have hoff : data[offset + i]? = none := List.getElem?_eq_none (by omega)
    rw [List.getElem?_append_right havailable, List.getD_eq_getElem?_getD, hoff, Option.getD_none,
      List.getElem?_replicate, if_pos hzero]

theorem length_readPadded (data : Bytes) (offset size : Nat) :
    (readPadded data offset size).length = size := by
  simp only [readPadded, List.length_append, List.length_take, List.length_drop,
    List.length_replicate]
  omega

/-- A word of call data consists of the 32 bytes from its offset on. -/
theorem Word.loadPadded_eq_readPadded (data : Bytes) (offset : Word) :
    loadPadded data offset =
      match offset.index? with
      | some start => ofBytes (readPadded data start 32)
      | none => .zero := by
  unfold loadPadded
  cases offset.index? with
  | none => rfl
  | some start =>
    by_cases hinside : start < data.length
    · simp only [if_pos hinside]
      rfl
    · have hzeros : readPadded data start 32 = List.replicate 32 0 := by
        rw [readPadded, List.drop_eq_nil_of_le (Nat.le_of_not_lt hinside)]
        rfl
      simp only [if_neg hinside, hzeros]
      rfl

/-- A byte of a word of data is the one at its place, and zero beyond the end. The place is a sum
that may be larger than any word. -/
theorem Word.byte_loadPadded {data : Bytes} (h : data.length ≤ 2 ^ 64) (offset : Word) {i : Nat}
    (hi : i < 32) : (loadPadded data offset).byte i = data[offset.toNat + i]?.getD 0 := by
  rw [loadPadded_eq_readPadded, index?_eq]
  by_cases hoffset : offset.toNat < 2 ^ 64
  · have hbyte := getElem?_eq_byte (length_readPadded data offset.toNat 32) hi
    rw [getElem?_readPadded data offset.toNat hi, Option.some.injEq,
      List.getD_eq_getElem?_getD] at hbyte
    rw [if_pos hoffset]
    exact hbyte.symm
  · have hbeyond : data[offset.toNat + i]? = none := List.getElem?_eq_none (by omega)
    rw [if_neg hoffset, hbeyond]
    exact byte_zero i

/-- What holds of every opcode that has an instruction. -/
theorem Instruction.of_opcode (p : UInt8 → Instruction → Bool)
    (h : ∀ n : Fin 256, (ofByte? (.ofNat n)).all (p (.ofNat n)) = true) {opcode : UInt8}
    {i : Instruction} (hi : ofByte? opcode = some i) : p opcode i = true := by
  have hopcode := h ⟨opcode.toNat, opcode.toNat_lt⟩
  rw [UInt8.ofNat_toNat, hi] at hopcode
  exact hopcode

/-- What holds of the instruction of every opcode. -/
theorem Instruction.of_ofByte? (p : Instruction → Bool)
    (h : ∀ n : Fin 256, (ofByte? (.ofNat n)).all p = true) {opcode : UInt8} {i : Instruction}
    (hi : ofByte? opcode = some i) : p i = true :=
  of_opcode (fun _ => p) h hi

/-- No opcode has more than 32 bytes behind it. -/
theorem Instruction.size_le_of_ofByte? {opcode : UInt8} {size : Nat}
    (h : ofByte? opcode = some (push size)) : size ≤ 32 :=
  of_decide_eq_true <| of_ofByte? (fun | push size => decide (size ≤ 32) | _ => true)
    (by decide +kernel) h

/-- The value of an immediate operand is written in the bytes behind the opcode. -/
theorem Frame.toNat_immediateAt (f : Frame) (offset : Nat) {size : Nat} (h : size ≤ 32) :
    (f.immediateAt offset size).toNat =
      Word.natOfBytes (readPadded f.code.toList (offset + 1) size) := by
  have hbytes : (List.range size).map (fun i => f.opcodeAt (offset + 1 + i)) =
      readPadded f.code.toList (offset + 1) size := by
    refine List.ext_getElem? fun i => ?_
    by_cases hi : i < size
    · rw [getElem?_readPadded _ _ hi, List.getElem?_map, List.getElem?_range hi, Option.map_some,
        Frame.opcodeAt]
      simp
    · rw [List.getElem?_eq_none (by simpa using hi),
        List.getElem?_eq_none (by simpa [length_readPadded] using hi)]
  have hlt : Word.natOfBytes (readPadded f.code.toList (offset + 1) size) < 2 ^ 256 := by
    have hsize := Word.natOfBytes_lt (readPadded f.code.toList (offset + 1) size)
    rw [length_readPadded] at hsize
    exact Nat.lt_of_lt_of_le hsize (Nat.pow_le_pow_right (n := 256) (by omega) h)
  rw [immediateAt, Word.toNat_ofNat, hbytes, Nat.mod_eq_of_lt hlt]

end EvmDispatch
