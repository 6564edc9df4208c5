import EvmDispatch.Machine.Code
import EvmDispatch.Proofs.Machine.Effect
import EvmDispatch.Proofs.Machine.Trail

/-!
# Code without jumps

In code that the scan finds free of jumps, no instruction that starts where another one ends is a
jump. A run never leaves these offsets: an instruction that is no jump goes on with the next one,
and behind the code the execution stops. So such a run never looks at its jump destinations
(`run_ofMessage_of_straight`).
-/

namespace EvmDispatch

namespace Code

variable {code : Bytes} {offset : Nat}

theorem byteAt_of_lt (h : offset < code.length) :
    code.drop offset = byteAt code offset :: code.drop (offset + 1) := by
  rw [List.drop_eq_getElem_cons h, byteAt, List.getD_eq_getElem?_getD, List.getElem?_eq_getElem h,
    Option.getD_some]

/-- Behind the code there are zeros, which stop a run. -/
theorem byteAt_of_le (h : code.length ≤ offset) : byteAt code offset = 0 := by
  rw [byteAt, List.getD_eq_getElem?_getD, List.getElem?_eq_none h, Option.getD_none]

theorem lt_nextOffset (code : Bytes) (offset : Nat) : offset < nextOffset code offset := by
  unfold nextOffset
  omega

/-- Behind the operand that it starts in, a scan for jumps goes on as a new one. -/
theorem isStraightFrom_eq (skip : Nat) (bytes : Bytes) :
    isStraightFrom skip bytes = isStraightFrom 0 (bytes.drop skip) := by
  induction skip generalizing bytes with
  | zero => rfl
  | succ skip ih =>
    cases bytes with
    | nil => rfl
    | cons b rest => exact ih rest

/-- The scan looks at an instruction and goes on with the next one. -/
theorem isStraightFrom_drop (inside : offset < code.length) :
    isStraightFrom 0 (code.drop offset) =
      (!Instruction.isJumpByte (byteAt code offset) &&
        isStraightFrom 0 (code.drop (nextOffset code offset))) := by
  rw [byteAt_of_lt inside, isStraightFrom, isStraightFrom_eq, List.drop_drop, nextOffset]

/-- The scan comes by every instruction. -/
theorem InstructionStart.isStraightFrom (start : InstructionStart code offset)
    (straight : isStraightLine code = true) : isStraightFrom 0 (code.drop offset) = true := by
  induction start with
  | first => exact straight
  | @next offset start inside ih =>
    rw [isStraightFrom_drop inside, Bool.and_eq_true] at ih
    exact ih.2

/-- In code without jumps no instruction jumps. -/
theorem InstructionStart.isJumpByte_eq_false (start : InstructionStart code offset)
    (straight : isStraightLine code = true) :
    Instruction.isJumpByte (byteAt code offset) = false := by
  by_cases inside : offset < code.length
  · have hscan := start.isStraightFrom straight
    rw [isStraightFrom_drop inside, Bool.and_eq_true, Bool.not_eq_true'] at hscan
    exact hscan.1
  · rw [byteAt_of_le (Nat.le_of_not_lt inside)]
    rfl

/-- The scan finds nothing where no instruction jumps. -/
theorem InstructionStart.isStraightFrom_of_forall
    (h : ∀ s, InstructionStart code s → s < code.length →
      Instruction.isJumpByte (byteAt code s) = false)
    (start : InstructionStart code offset) : Code.isStraightFrom 0 (code.drop offset) = true := by
  -- on the number of bytes from the instruction to the end of the code
  induction hrest : code.length - offset using Nat.strongRecOn generalizing offset with
  | ind rest ih =>
    by_cases inside : offset < code.length
    · have hlt := lt_nextOffset code offset
      have hnext := ih (code.length - nextOffset code offset) (by omega) (.next start inside) rfl
      rw [isStraightFrom_drop inside, h offset start inside, hnext]
      rfl
    · rw [List.drop_of_length_le (Nat.le_of_not_lt inside)]
      rfl

end Code

namespace Instruction

/-- The two opcodes that jump are those of the two instructions that do. -/
theorem isJumpByte_iff {opcode : UInt8} :
    isJumpByte opcode = true ↔ ofByte? opcode = some jump ∨ ofByte? opcode = some jumpIf := by
  have hall : ∀ n : Fin 256, isJumpByte (.ofNat n) = true ↔
      ofByte? (.ofNat n) = some jump ∨ ofByte? (.ofNat n) = some jumpIf := by
    decide +kernel
  have hopcode := hall ⟨opcode.toNat, opcode.toNat_lt⟩
  rwa [UInt8.ofNat_toNat] at hopcode

theorem isJumpByte_of_ofByte? {opcode : UInt8} {i : Instruction} (h : ofByte? opcode = some i)
    (jumps : i = jump ∨ i = jumpIf) : isJumpByte opcode = true := by
  rw [isJumpByte_iff, h, Option.some_inj, Option.some_inj]
  exact jumps

end Instruction

/-- Whether the code has a jump: some instruction of it jumps, always or under a condition. -/
def Code.HasJump (code : Bytes) : Prop :=
  ∃ offset, InstructionStart code offset ∧ offset < code.length ∧
    (Instruction.ofByte? (byteAt code offset) = some .jump ∨
      Instruction.ofByte? (byteAt code offset) = some .jumpIf)

/-- The scan declines code that has a jump, and no other. -/
theorem Code.isStraightLine_eq_false_iff {code : Bytes} :
    isStraightLine code = false ↔ HasJump code := by
  constructor
  · intro hscan
    refine Classical.byContradiction fun hnone => ?_
    have hplain : ∀ s, InstructionStart code s → s < code.length →
        Instruction.isJumpByte (byteAt code s) = false := by
      intro s start inside
      rw [Bool.eq_false_iff]
      intro hjump
      exact hnone ⟨s, start, inside, Instruction.isJumpByte_iff.mp hjump⟩
    have hstraight : isStraightLine code = true :=
      InstructionStart.first.isStraightFrom_of_forall hplain
    rw [hscan] at hstraight
    cases hstraight
  · rintro ⟨s, start, -, hjump⟩
    rw [Bool.eq_false_iff]
    intro straight
    have hplain := start.isJumpByte_eq_false straight
    rw [Instruction.isJumpByte_iff.mpr hjump] at hplain
    cases hplain

namespace Machine

/-- Only jumps go elsewhere than to the next instruction. -/
theorem Effect.jumps {f : Frame} {offset goal : Nat} {i : Instruction} {m m' : Machine}
    (h : Effect f offset i m (.jump goal) m') : i = .jump ∨ i = .jumpIf := by
  cases h with
  | jump => exact .inl rfl
  | jumpIfTaken => exact .inr rfl

/-- The table of jump destinations bears on the two instructions that jump only. -/
theorem perform_congr {r : Revision} {message : Message} {targets targets' : List Bool}
    {offset : Nat} {i : Instruction} (hjump : i ≠ .jump) (hjumpIf : i ≠ .jumpIf) :
    perform (.ofMessage r message targets') offset i =
      perform (.ofMessage r message targets) offset i := by
  cases i with
  | jump => exact absurd rfl hjump
  | jumpIf => exact absurd rfl hjumpIf
  | _ => rfl

end Machine

namespace Frame

variable {r : Revision} {message : Message} {targets targets' : List Bool}

theorem opcodeAt_ofMessage (offset : Nat) :
    (ofMessage r message targets).opcodeAt offset = Code.byteAt message.code offset := by
  simp [opcodeAt, ofMessage, Code.byteAt]

/-- Where no jump stands, frames with different tables do the same. -/
theorem executeAt_congr {offset : Nat}
    (h : Instruction.isJumpByte (Code.byteAt message.code offset) = false) :
    (ofMessage r message targets').executeAt offset =
      (ofMessage r message targets).executeAt offset := by
  funext m
  refine Machine.executeAt_congr rfl (fun _ _ => rfl) fun i hi _ => ?_
  have hbyte := Instruction.ofByte?_of_executable? hi
  rw [opcodeAt_ofMessage] at hbyte
  have hjumps : ¬(i = .jump ∨ i = .jumpIf) := by
    intro jumps
    rw [Instruction.isJumpByte_of_ofByte? hbyte jumps] at h
    cases h
  rw [Machine.perform_congr (fun e => hjumps (.inl e)) fun e => hjumps (.inr e)]

/-- Behind an instruction that does not end the execution, the next one starts. -/
theorem instructionStart_of_ok_next {p : Point} {m : Machine}
    (start : Code.InstructionStart message.code p.offset)
    (h : (ofMessage r message targets).resultAt p = .ok .next m) :
    Code.InstructionStart message.code (Code.nextOffset message.code p.offset) := by
  have inside : p.offset < message.code.length := Machine.offset_lt_of_next h
  exact .next start inside

/-- From an instruction that does not jump, the execution goes on with the next one. -/
theorem instructionStart_of_next? {p q : Point}
    (straight : Code.isStraightLine message.code = true)
    (start : Code.InstructionStart message.code p.offset)
    (h : (ofMessage r message targets).next? p = some q) :
    Code.InstructionStart message.code q.offset := by
  obtain ⟨c, hresult, -, hc⟩ := next?_eq_some h
  rcases hc with ⟨rfl, hoffset⟩ | rfl
  · rw [hoffset, opcodeAt_ofMessage]
    exact instructionStart_of_ok_next start hresult
  · obtain ⟨i, hi, -, effect⟩ := Machine.effect_of_executeAt hresult
    rw [opcodeAt_ofMessage] at hi
    have hjumps := Instruction.isJumpByte_of_ofByte? hi effect.jumps
    rw [start.isJumpByte_eq_false straight] at hjumps
    cases hjumps

/-- A run of code without jumps does not depend on its jump destinations. -/
theorem run_ofMessage_of_straight (straight : Code.isStraightLine message.code = true)
    (settings : Settings) (gas : Int) (observed : Bool) :
    (ofMessage r message targets').run settings gas observed =
      (ofMessage r message targets).run settings gas observed := by
  refine run_congr (fun p => Code.InstructionStart message.code p.offset) .first ?_ ?_ ?_
  · intro p q start h
    exact instructionStart_of_next? straight start h
  · intro p _
    rw [opcodeAt_ofMessage, opcodeAt_ofMessage]
  · intro p start
    exact congrFun (executeAt_congr (start.isJumpByte_eq_false straight)) p.machine

end Frame

end EvmDispatch
