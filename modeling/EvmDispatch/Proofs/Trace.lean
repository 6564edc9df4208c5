import EvmDispatch.Proofs.Machine.Immediate
import EvmDispatch.Proofs.Text.Hex
import EvmDispatch.Proofs.Text.Numeral
import EvmDispatch.Trace
import Mathlib.Data.List.Nodup

/-!
# What the line of a step tells

The line of a step is a sequence of fields with a blank between each two of them. No field has a
blank in it, so that the fields can be told from the line, and each of them tells what it shows: a
number by its digits, an opcode by a name that no other opcode has or by its own digits, and a word
by the bytes that write its value. The word that was put on the stack is a field that may be
missing, which shows in the number of fields. So the line tells the whole step, up to statuses that
have the same number (`stepLine_eq_iff`).
-/

namespace EvmDispatch

/-! ## Names of opcodes -/

namespace Instruction

/-- Mnemonics are made of capital letters and digits. -/
theorem mnemonic_chars {opcode : UInt8} {i : Instruction} (h : ofByte? opcode = some i) {c : Char}
    (hc : c ∈ i.mnemonic.toList) : c.isUpper ∨ c.isDigit := by
  have hall : (i.mnemonic.toList.all fun c => c.isUpper || c.isDigit) = true :=
    of_ofByte? (fun i => i.mnemonic.toList.all fun c => c.isUpper || c.isDigit)
      (by decide +kernel) h
  have hchar := List.all_eq_true.mp hall c hc
  rwa [Bool.or_eq_true] at hchar

/-- A name as a number, since numbers are compared faster than texts. -/
def nameKey (i : Instruction) : Nat := Word.natOfBytes i.mnemonic.toByteArray.data.toList

/-- No two opcodes have the same mnemonic. The mnemonics are compared as numbers. -/
theorem nodup_nameKeys :
    (((List.range 256).filter fun n => (ofByte? (.ofNat n)).isSome).map fun n =>
      (ofByte? (.ofNat n)).elim 0 nameKey).Nodup := by
  decide +kernel

/-- No two opcodes have the same name. -/
theorem opcode_eq_of_mnemonic_eq {a b : UInt8} {i j : Instruction} (ha : ofByte? a = some i)
    (hb : ofByte? b = some j) (h : i.mnemonic = j.mnemonic) : a = b := by
  have hmem : ∀ {c : UInt8} {k : Instruction}, ofByte? c = some k →
      c.toNat ∈ (List.range 256).filter fun n => (ofByte? (.ofNat n)).isSome := by
    intro c k hc
    rw [List.mem_filter, List.mem_range, UInt8.ofNat_toNat, hc]
    exact ⟨c.toNat_lt, rfl⟩
  apply UInt8.toNat_inj.mp
  apply List.inj_on_of_nodup_map nodup_nameKeys (hmem ha) (hmem hb)
  rw [UInt8.ofNat_toNat, UInt8.ofNat_toNat, ha, hb]
  show nameKey i = nameKey j
  rw [nameKey, h, nameKey]

end Instruction

namespace Trace

/-! ## Bytes between two texts -/

section Bracketed

variable {opening closing : String}

theorem toList_bracketed (opening closing : String) (bytes : Bytes) :
    (opening ++ Hex.encode bytes ++ closing).toList =
      opening.toList ++ Hex.encodeChars bytes ++ closing.toList := by
  rw [String.toList_append, String.toList_append, Hex.encode, String.toList_ofList]

/-- Bytes between two fixed texts can be read back. -/
theorem bracketed_injective {bytes bytes' : Bytes}
    (h : opening ++ Hex.encode bytes ++ closing = opening ++ Hex.encode bytes' ++ closing) :
    bytes = bytes' := by
  have hchars := congrArg String.toList h
  rw [toList_bracketed, toList_bracketed, List.append_cancel_right_eq,
    List.append_cancel_left_eq] at hchars
  exact Hex.encodeChars_injective hchars

theorem blank_not_mem_bracketed (hopening : ' ' ∉ opening.toList) (hclosing : ' ' ∉ closing.toList)
    (bytes : Bytes) : ' ' ∉ (opening ++ Hex.encode bytes ++ closing).toList := by
  intro hblank
  rw [toList_bracketed, List.mem_append, List.mem_append] at hblank
  rcases hblank with (hblank | hblank) | hblank
  · exact hopening hblank
  · exact absurd (Hex.isDigit_of_mem_encodeChars hblank) (by decide)
  · exact hclosing hblank

end Bracketed

/-! ## Opcodes -/

/-- An opcode is shown by its name, or by its digits if the revision does not define it. -/
theorem opcodeText_cases (r : Revision) (opcode : UInt8) :
    (∃ i, Instruction.ofByte? opcode = some i ∧ opcodeText r opcode = i.mnemonic) ∨
      opcodeText r opcode = "UNDEFINED(0x" ++ Hex.encode [opcode] ++ ")" := by
  unfold opcodeText
  split
  · rename_i i hi
    exact .inl ⟨i, (Option.filter_eq_some_iff.mp hi).1, rfl⟩
  · exact .inr rfl

/-- No mnemonic looks like the name of an opcode that is not defined, because it has no bracket. -/
theorem mnemonic_ne_undefined {opcode : UInt8} {i : Instruction}
    (h : Instruction.ofByte? opcode = some i) (bytes : Bytes) :
    i.mnemonic ≠ "UNDEFINED(0x" ++ Hex.encode bytes ++ ")" := by
  intro hname
  have hbracket : '(' ∈ i.mnemonic.toList := by
    rw [hname, toList_bracketed, List.append_assoc]
    exact List.mem_append_left _ (by decide)
  exact absurd (Instruction.mnemonic_chars h hbracket) (by decide)

/-- Under one revision no two opcodes are shown alike. -/
theorem opcodeText_injective {r : Revision} {a b : UInt8} (h : opcodeText r a = opcodeText r b) :
    a = b := by
  rcases opcodeText_cases r a with ⟨i, hi, ha⟩ | ha
  · rcases opcodeText_cases r b with ⟨j, hj, hb⟩ | hb
    · exact Instruction.opcode_eq_of_mnemonic_eq hi hj (by rw [← ha, ← hb, h])
    · rw [ha, hb] at h
      exact absurd h (mnemonic_ne_undefined hi _)
  · rcases opcodeText_cases r b with ⟨j, hj, hb⟩ | hb
    · rw [ha, hb] at h
      exact absurd h.symm (mnemonic_ne_undefined hj _)
    · rw [ha, hb] at h
      exact List.singleton_inj.mp (bracketed_injective h)

theorem blank_not_mem_opcodeText (r : Revision) (opcode : UInt8) :
    ' ' ∉ (opcodeText r opcode).toList := by
  rcases opcodeText_cases r opcode with ⟨i, hi, htext⟩ | htext
  · rw [htext]
    intro hblank
    exact absurd (Instruction.mnemonic_chars hi hblank) (by decide)
  · rw [htext]
    exact blank_not_mem_bracketed (by decide) (by decide) [opcode]

/-! ## Words -/

theorem natOfBytes_dropWhile_zero (bytes : Bytes) :
    Word.natOfBytes (bytes.dropWhile (· == 0)) = Word.natOfBytes bytes := by
  induction bytes with
  | nil => rfl
  | cons b rest ih =>
    by_cases hb : b = 0
    · subst hb
      exact ih
    · rw [List.dropWhile_cons_of_neg (by simpa using hb)]

/-- The bytes that are shown of a word write its value. -/
theorem natOfBytes_significantBytes (w : Word) :
    Word.natOfBytes (significantBytes w) = w.toNat := by
  have hvalue := natOfBytes_dropWhile_zero w.toBytes
  rw [Word.natOfBytes_toBytes] at hvalue
  unfold significantBytes
  split
  · rename_i hnone
    rw [hnone] at hvalue
    exact hvalue
  · exact hvalue

/-- A word is told by its bytes behind the leading zeros. -/
theorem significantBytes_injective {a b : Word} (h : significantBytes a = significantBytes b) :
    a = b := by
  apply Word.toNat_injective
  rw [← natOfBytes_significantBytes, h, natOfBytes_significantBytes]

/-- The field for the word that was put on the stack. -/
def wordField (w : Word) : String := "+[0x" ++ Hex.encode (significantBytes w) ++ "]"

theorem wordField_injective {a b : Word} (h : wordField a = wordField b) : a = b :=
  significantBytes_injective (bracketed_injective h)

theorem blank_not_mem_wordField (w : Word) : ' ' ∉ (wordField w).toList :=
  blank_not_mem_bracketed (by decide) (by decide) (significantBytes w)

/-- The word that is put on the stack is told by its field, and its absence by that of the field. -/
theorem pushed_eq_of_wordField_eq {a b : Option Word}
    (h : (a.map wordField).toList = (b.map wordField).toList) : a = b := by
  have hfield : a.map wordField = b.map wordField := by
    rw [← (a.map wordField).head?_toList, h, Option.head?_toList]
  exact Option.map_injective (fun _ _ => wordField_injective) hfield

/-! ## The fields of a line -/

/-- The fields of the line of a step, in their order. -/
def stepFields (r : Revision) (step : Step) : List String :=
  [toString step.index, toString step.codeOffset, opcodeText r step.opcode,
    toString step.status.raw, toString step.gasLeft, toString step.stackDepth] ++
    (step.pushed.map wordField).toList ++ [toString step.memorySize]

/-- A line consists of fields with blanks between them. -/
theorem toList_stepLine (r : Revision) (step : Step) :
    (stepLine r step).toList = [' '].intercalate ((stepFields r step).map String.toList) := by
  have hblank : (toString " ").toList = [' '] := rfl
  obtain ⟨index, codeOffset, opcode, status, gasLeft, stackDepth, pushed, memorySize⟩ := step
  cases pushed with
  | none =>
    simp [stepLine, stepFields, pushedText, List.intercalate, String.toList_append, hblank]
  | some w =>
    simp [stepLine, stepFields, pushedText, wordField, List.intercalate, String.toList_append,
      hblank]

theorem blank_not_mem_natText (n : Nat) : ' ' ∉ (toString n).toList := by
  intro hblank
  exact absurd (Text.isDigit_of_mem_natText hblank) (by decide)

theorem blank_not_mem_intText (n : Int) : ' ' ∉ (toString n).toList := by
  intro hblank
  exact absurd (Text.isDigit_or_minus_of_mem_intText hblank) (by decide)

/-- No field has a blank, so that the blanks of a line are those between its fields. -/
theorem blank_not_mem_stepFields (r : Revision) (step : Step) :
    ∀ field ∈ (stepFields r step).map String.toList, ' ' ∉ field := by
  intro chars hchars
  obtain ⟨field, hfield, rfl⟩ := List.mem_map.mp hchars
  simp only [stepFields, List.mem_append, List.mem_cons, List.not_mem_nil, or_false,
    Option.mem_toList, Option.map_eq_some_iff] at hfield
  rcases hfield with ((rfl | rfl | rfl | rfl | rfl | rfl) | ⟨w, -, rfl⟩) | rfl
  · exact blank_not_mem_natText step.index.toNat
  · exact blank_not_mem_natText step.codeOffset
  · exact blank_not_mem_opcodeText r step.opcode
  · exact blank_not_mem_intText step.status.raw
  · exact blank_not_mem_intText step.gasLeft
  · exact blank_not_mem_natText step.stackDepth
  · exact blank_not_mem_wordField w
  · exact blank_not_mem_natText step.memorySize

/-- The line tells its fields, since they are what stands between the blanks. -/
theorem stepFields_eq_of_stepLine_eq {r : Revision} {a b : Step}
    (h : stepLine r a = stepLine r b) : stepFields r a = stepFields r b := by
  have hne : ∀ step, (stepFields r step).map String.toList ≠ [] := by
    intro step
    simp [stepFields]
  have hfields : (stepFields r a).map String.toList = (stepFields r b).map String.toList := by
    rw [← List.splitOn_intercalate ' ' (blank_not_mem_stepFields r a) (hne a),
      ← toList_stepLine, h, toList_stepLine,
      List.splitOn_intercalate ' ' (blank_not_mem_stepFields r b) (hne b)]
  exact List.map_injective_iff.mpr (fun _ _ => String.toList_injective) hfields

/-- The line of a step tells the whole step, but for what its status is besides its number. -/
theorem stepLine_eq_iff (r : Revision) (a b : Step) :
    stepLine r a = stepLine r b ↔
      a.status.raw = b.status.raw ∧ { a with status := b.status } = b := by
  constructor
  · intro h
    have hfields : _ ++ [_] = _ ++ [_] := stepFields_eq_of_stepLine_eq h
    -- the field of the word may be missing, so the fields around it are taken off from both ends
    obtain ⟨hfront, hlast⟩ := List.append_inj' hfields rfl
    obtain ⟨hfirst, hpushed⟩ := List.append_inj hfront rfl
    simp only [List.cons.injEq] at hfirst hlast
    obtain ⟨hindex, hoffset, hopcode, hstatus, hgas, hdepth, -⟩ := hfirst
    have hindex : a.index = b.index := UInt32.toNat_inj.mp (Text.natText_injective hindex)
    have hoffset : a.codeOffset = b.codeOffset := Text.natText_injective hoffset
    have hopcode : a.opcode = b.opcode := opcodeText_injective hopcode
    have hgas : a.gasLeft = b.gasLeft := Text.intText_injective hgas
    have hdepth : a.stackDepth = b.stackDepth := Text.natText_injective hdepth
    have hpushed : a.pushed = b.pushed := pushed_eq_of_wordField_eq hpushed
    have hsize : a.memorySize = b.memorySize := Text.natText_injective hlast.1
    refine ⟨Text.intText_injective hstatus, ?_⟩
    rw [hindex, hoffset, hopcode, hgas, hdepth, hpushed, hsize]
  · rintro ⟨hraw, hstep⟩
    rw [← hstep]
    simp only [stepLine, hraw]

/-- The lines of steps lose nothing. Two steps with statuses that an engine can report over the
plugin boundary are the same in every field if they are shown by the same line under one revision:
in their numbers, in the opcode, in the status, in whether a word was put on the stack, and in this
word. -/
theorem stepLine_injective (r : Revision) {a b : Step} (ha : a.status.Canonical)
    (hb : b.status.Canonical) (h : stepLine r a = stepLine r b) : a = b := by
  obtain ⟨hraw, hstep⟩ := (stepLine_eq_iff r a b).mp h
  have hstatus : a.status = b.status := by
    rw [← ha, hraw, hb]
  rw [← hstep, ← hstatus]

/-- A word is shown by its value, so the same line comes from the same word, however it is given. -/
theorem stepLine_injective_wrapped :
    let a : Step := ⟨3, 7, 0x61, .other 42, -91, 2, some (.ofNat (2 ^ 256 + 0xabcd)), 64⟩
    let b : Step := ⟨3, 7, 0x61, .ofRaw 42, -91, 2, some (.ofUInt64 0xabcd), 64⟩
    a.status.Canonical ∧ b.status.Canonical ∧ stepLine .byzantium a = stepLine .byzantium b ∧
      a = b := by
  intro a b
  have ha : a.status.Canonical := by decide
  have hb : b.status.Canonical := by decide
  have hline : stepLine .byzantium a = stepLine .byzantium b := by decide
  exact ⟨ha, hb, hline, stepLine_injective .byzantium ha hb hline⟩

/-- A status under a number that has a name of its own cannot be told from the one of that name. -/
example : stepLine .frontier ⟨0, 0, 0x00, .other 0, 0, 0, none, 0⟩ =
    stepLine .frontier ⟨0, 0, 0x00, .success, 0, 0, none, 0⟩ := rfl

end Trace

end EvmDispatch
