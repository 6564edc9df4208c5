import EvmDispatch.Backend.Interpreter
import EvmDispatch.Proofs.Machine.Accounting
import EvmDispatch.Proofs.Machine.Lockstep
import EvmDispatch.Proofs.Machine.StraightLine

/-!
# Where a run goes

The instructions of a code lie side by side: none starts inside another one, and each byte belongs
to one of them. The table of jump destinations is that of the instructions that mark one, so that a
run under it goes from instruction to instruction, by a jump or without one, and never comes to the
data of a push (`Interpreter.execute_control_flow`).
-/

namespace EvmDispatch

/-! ## The instructions of a code -/

namespace Code

variable {code : Bytes} {s t i : Nat}

/-- An offset that may be jumped to: that of an instruction that marks a jump destination. -/
def IsDestination (code : Bytes) (offset : Nat) : Prop :=
  InstructionStart code offset ∧ offset < code.length ∧
    byteAt code offset = Instruction.jumpDestinationByte

/-- Of two instructions, the first ends before the second starts. -/
theorem InstructionStart.nextOffset_le (hs : InstructionStart code s)
    (ht : InstructionStart code t) (h : s < t) : nextOffset code s ≤ t := by
  induction t using Nat.strong_induction_on generalizing s with
  | _ t ih =>
    cases ht with
    | first => exact absurd h (Nat.not_lt_zero s)
    | @next t' start inside =>
      -- `t'` is the instruction before `t`, so `s` does not lie between them
      have hlt : t' < nextOffset code t' := lt_nextOffset code t'
      rcases Nat.lt_trichotomy s t' with hst | rfl | hst
      · have hbefore := ih t' hlt hs start hst
        omega
      · exact Nat.le_refl _
      · have hbetween := ih s h start hs hst
        omega

/-- Every byte of the code belongs to an instruction. -/
theorem exists_instructionStart (h : i < code.length) :
    ∃ s, InstructionStart code s ∧ s ≤ i ∧ i < nextOffset code s := by
  induction i with
  | zero => exact ⟨0, .first, Nat.le_refl 0, lt_nextOffset code 0⟩
  | succ i ih =>
    obtain ⟨s, start, hle, hlt⟩ := ih (Nat.lt_of_succ_lt h)
    by_cases hinside : i + 1 < nextOffset code s
    · exact ⟨s, start, Nat.le_succ_of_le hle, hinside⟩
    · have hend : nextOffset code s = i + 1 := by omega
      have hnext : InstructionStart code (nextOffset code s) := .next start (by omega)
      rw [hend] at hnext
      exact ⟨i + 1, hnext, Nat.le_refl _, lt_nextOffset code (i + 1)⟩

/-! ## The table -/

theorem length_jumpTableFrom (skip : Nat) (bytes : Bytes) :
    (jumpTableFrom skip bytes).length = bytes.length := by
  induction bytes generalizing skip with
  | nil => cases skip <;> rfl
  | cons b rest ih => cases skip <;> simp [jumpTableFrom, ih]

/-- Behind the operand that it starts in, a scan goes on as a new one. -/
theorem drop_jumpTableFrom (skip : Nat) (bytes : Bytes) :
    (jumpTableFrom skip bytes).drop skip = jumpTableFrom 0 (bytes.drop skip) := by
  induction skip generalizing bytes with
  | zero => rfl
  | succ skip ih =>
    cases bytes with
    | nil => rfl
    | cons b rest => exact ih rest

/-- Bytes that are skipped are no jump destinations. -/
theorem getElem?_jumpTableFrom_ne {skip : Nat} (bytes : Bytes) (h : i < skip) :
    (jumpTableFrom skip bytes)[i]? ≠ some true := by
  induction skip generalizing bytes i with
  | zero => exact absurd h (Nat.not_lt_zero i)
  | succ skip ih =>
    cases bytes with
    | nil => exact nofun
    | cons b rest =>
      cases i with
      | zero => simp [jumpTableFrom]
      | succ i =>
        rw [jumpTableFrom, List.getElem?_cons_succ]
        exact ih rest (Nat.lt_of_succ_lt_succ h)

/-- The scan comes by every instruction with no bytes left to skip. -/
theorem InstructionStart.drop_jumpTable (start : InstructionStart code s) :
    (jumpTable code).drop s = jumpTableFrom 0 (code.drop s) := by
  induction start with
  | first => rfl
  | @next s start inside ih =>
    have hrest : (jumpTable code).drop (s + 1) =
        jumpTableFrom (Instruction.immediateSize (byteAt code s)) (code.drop (s + 1)) := by
      rw [← List.drop_drop, ih, byteAt_of_lt inside, jumpTableFrom, List.drop_one, List.tail_cons]
    rw [nextOffset, ← List.drop_drop, hrest, drop_jumpTableFrom, List.drop_drop]

/-- At an instruction the table has an entry that tells its kind, and behind it entries for its
data. -/
theorem InstructionStart.drop_jumpTable_eq_cons (start : InstructionStart code s)
    (inside : s < code.length) :
    (jumpTable code).drop s =
      (byteAt code s == Instruction.jumpDestinationByte) ::
        jumpTableFrom (Instruction.immediateSize (byteAt code s)) (code.drop (s + 1)) := by
  rw [start.drop_jumpTable, byteAt_of_lt inside, jumpTableFrom]

/-- The table marks the jump destinations, and nothing else. -/
theorem getElem?_jumpTable (code : Bytes) (i : Nat) :
    (jumpTable code)[i]? = some true ↔ IsDestination code i := by
  constructor
  · intro h
    have inside : i < code.length := by
      have hlength := (List.getElem?_eq_some_iff.mp h).1
      rwa [jumpTable, length_jumpTableFrom] at hlength
    obtain ⟨s, start, hle, hlt⟩ := exists_instructionStart inside
    obtain ⟨k, rfl⟩ := Nat.exists_eq_add_of_le hle
    rw [← List.getElem?_drop, start.drop_jumpTable_eq_cons (by omega)] at h
    cases k with
    | zero => exact ⟨start, inside, by simpa using h⟩
    | succ k =>
      rw [List.getElem?_cons_succ] at h
      unfold nextOffset at hlt
      exact absurd h (getElem?_jumpTableFrom_ne _ (by omega))
  · rintro ⟨start, inside, hbyte⟩
    have hhead : ((jumpTable code).drop i)[0]? = some true := by
      rw [start.drop_jumpTable_eq_cons inside, hbyte]
      rfl
    rwa [List.getElem?_drop] at hhead

end Code

/-! ## Jumps -/

namespace Frame

/-- That the instruction at a point jumps to a word: it is a jump, or a conditional jump whose
condition is not zero; it has its operands; and its price can be paid. -/
inductive JumpsTo (f : Frame) (p : Point) : Word → Prop where
  | jump {target : Word} {rest : List Word} (instruction : f.instructionAt? p = some .jump)
    (paid : (f.priceAt p : Int) ≤ p.machine.gas)
    (operands : p.machine.stack.items = target :: rest) : JumpsTo f p target
  | jumpIf {target condition : Word} {rest : List Word}
    (instruction : f.instructionAt? p = some .jumpIf)
    (paid : (f.priceAt p : Int) ≤ p.machine.gas)
    (operands : p.machine.stack.items = target :: condition :: rest)
    (holds : condition ≠ .zero) : JumpsTo f p target

/-- A jump that is paid for and has its operands depends on where it goes, and on nothing else. -/
theorem JumpsTo.resultAt_eq {f : Frame} {p : Point} {target : Word} (h : f.JumpsTo p target) :
    ∃ m, f.resultAt p = f.jumpTo target m := by
  cases h with
  | jump instruction paid operands =>
    rw [resultAt_of_instructionAt? instruction rfl (by decide), if_pos paid, Machine.perform]
    exact ⟨_, Machine.pop_bind_apply operands⟩
  | @jumpIf condition rest instruction paid operands holds =>
    have hcondition : ¬condition.isZero = true := (Word.isZero_iff condition).not.mpr holds
    rw [resultAt_of_instructionAt? instruction rfl (by decide), if_pos paid, Machine.perform]
    generalize hm : ({ p.machine with gas := p.machine.gas - f.priceAt p } : Machine) = m
    have operands : m.stack.items = target :: condition :: rest := by
      rw [← hm]
      exact operands
    rw [Machine.pop_bind_apply operands, Machine.pop_bind_apply rfl, if_neg hcondition]
    exact ⟨_, rfl⟩

end Frame

/-! ## Runs of the interpreter -/

namespace Interpreter

variable {r : Revision} {message : Message}

/-- The frame of a message under the table of its own code. -/
def frame (r : Revision) (message : Message) : Frame :=
  .ofMessage r message (Code.jumpTable message.code)

/-- The interpreter runs the frame whose table it has made of the code. -/
theorem execute_eq_run (e : Engine) (r : Revision) (message : Message) (observed : Bool) :
    (execute e r message observed).1 =
      (frame r message).run e.settings message.gas observed :=
  rfl

theorem opcodeAt_frame (offset : Nat) :
    (frame r message).opcodeAt offset = Code.byteAt message.code offset :=
  Frame.opcodeAt_ofMessage offset

/-- The table marks the destinations, and nothing else. -/
theorem getD_jumpTargets (goal : Nat) :
    (frame r message).jumpTargets.getD goal false = true ↔
      Code.IsDestination message.code goal := by
  rw [← Code.getElem?_jumpTable]
  cases h : (Code.jumpTable message.code)[goal]? <;> simp [frame, Frame.ofMessage, h]

/-- An instruction goes on with the next one, or with one that marks a jump destination. -/
theorem instructionStart_of_next? {p q : Point}
    (start : Code.InstructionStart message.code p.offset)
    (h : (frame r message).next? p = some q) : Code.InstructionStart message.code q.offset := by
  obtain ⟨c, hresult, -, hc⟩ := Frame.next?_eq_some h
  rcases hc with ⟨rfl, hoffset⟩ | rfl
  · rw [hoffset, opcodeAt_frame]
    exact Frame.instructionStart_of_ok_next start hresult
  · obtain ⟨i, -, -, effect⟩ := Machine.effect_of_executeAt hresult
    exact ((getD_jumpTargets q.offset).mp effect.destination).1

/-- Every point of a run is at the start of an instruction. -/
theorem instructionStart_of_mem_trail {settings : Settings} {gas : Int} {p : Point}
    (h : p ∈ (frame r message).trail (.start settings gas)) :
    Code.InstructionStart message.code p.offset :=
  Frame.forall_mem_trail (fun p => Code.InstructionStart message.code p.offset)
    (fun _ _ start hnext => instructionStart_of_next? start hnext) .first p h

/-- A jump to a destination succeeds. -/
theorem jumpTo_of_isDestination (addressable : message.code.length ≤ 2 ^ 64) {target : Word}
    (h : Code.IsDestination message.code target.toNat) (m : Machine) :
    (frame r message).jumpTo target m = .ok (.jump target.toNat) m := by
  have hindex : target.index? = some target.toNat :=
    Word.index?_of_lt (Nat.lt_of_lt_of_le h.2.1 addressable)
  unfold Frame.jumpTo
  simp only [hindex]
  rw [if_pos ((getD_jumpTargets _).mpr h)]
  rfl

/-- A jump to anywhere else fails, and changes nothing. -/
theorem jumpTo_of_not_isDestination {target : Word}
    (h : ¬ Code.IsDestination message.code target.toNat) (m : Machine) :
    (frame r message).jumpTo target m = .error .badJumpDestination m := by
  unfold Frame.jumpTo
  cases hindex : target.index? with
  | none => rfl
  | some goal =>
    rw [Word.toNat_of_index? hindex] at h
    simp only
    rw [if_neg ((getD_jumpTargets goal).not.mpr h)]
    rfl

/-- The control flow of a run keeps to the instructions of the code. Whatever the settings, the
revision and the message are: the table of jump destinations has an entry for each byte of the code,
which is true for the instructions that mark a jump destination only; each step is that of an
instruction of the code, or stops behind its end, so that no byte inside an instruction is executed;
and a jump that is paid for and has its operands goes to its target if that is a jump destination,
and otherwise ends the run as a bad jump. The code of a message has at most `2 ^ 64` bytes, as many
as there are offsets of 64 bits. -/
theorem execute_control_flow (e : Engine) (r : Revision) (message : Message) (observed : Bool) :
    let code := message.code
    let points := (frame r message).trail (.start e.settings message.gas)
    let steps := (execute e r message true).1.steps
    ((Code.jumpTable code).length = code.length ∧
      ∀ i, (Code.jumpTable code)[i]? = some true ↔ Code.IsDestination code i) ∧
    (∀ s ∈ steps, Code.InstructionStart code s.codeOffset ∧
      s.opcode = Code.byteAt code s.codeOffset ∧
      (code.length ≤ s.codeOffset → Instruction.ofByte? s.opcode = some .stop) ∧
      ∀ start, Code.InstructionStart code start →
        ¬(start < s.codeOffset ∧ s.codeOffset < Code.nextOffset code start)) ∧
    steps = points.map ((frame r message).stepAt e.settings) ∧
    (code.length ≤ 2 ^ 64 →
      ∀ i p target, points[i]? = some p → (frame r message).JumpsTo p target →
        (Code.IsDestination code target.toNat →
          ∃ s s', steps[i]? = some s ∧ s.status = .success ∧
            steps[i + 1]? = some s' ∧ s'.codeOffset = target.toNat) ∧
        (¬ Code.IsDestination code target.toNat →
          steps.length = i + 1 ∧ (∃ s, steps[i]? = some s ∧ s.status = .badJumpDestination) ∧
            (execute e r message observed).1.status = .badJumpDestination)) := by
  intro code points steps
  have hsteps : steps = points.map ((frame r message).stepAt e.settings) :=
    Frame.run_steps_observed _ _ _
  refine ⟨⟨Code.length_jumpTableFrom 0 code, Code.getElem?_jumpTable code⟩, ?_, hsteps, ?_⟩
  · intro s hs
    rw [hsteps, List.mem_map] at hs
    obtain ⟨p, hp, rfl⟩ := hs
    have hoffset : ((frame r message).stepAt e.settings p).codeOffset = p.offset :=
      Frame.codeOffset_stepAt _ p
    have hopcode : ((frame r message).stepAt e.settings p).opcode = Code.byteAt code p.offset := by
      rw [Frame.opcode_stepAt, opcodeAt_frame]
    have hstart := instructionStart_of_mem_trail hp
    rw [hoffset, hopcode]
    refine ⟨hstart, rfl, ?_, ?_⟩
    · intro outside
      rw [Code.byteAt_of_le outside]
      rfl
    · rintro start hfirst ⟨hlt, hinside⟩
      have hnext := hfirst.nextOffset_le hstart hlt
      omega
  · intro addressable i p target hp hjump
    obtain ⟨m, hresult⟩ := hjump.resultAt_eq
    have hstep : steps[i]? = some ((frame r message).stepAt e.settings p) := by
      rw [hsteps, List.getElem?_map, hp]
      rfl
    refine ⟨?_, ?_⟩
    · intro hdestination
      rw [jumpTo_of_isDestination addressable hdestination] at hresult
      have hnext : (frame r message).next? p = some ⟨p.index + 1, target.toNat, m⟩ := by
        rw [Frame.next?, hresult]
      have hstep' : steps[i + 1]? =
          some ((frame r message).stepAt e.settings ⟨p.index + 1, target.toNat, m⟩) := by
        rw [hsteps, List.getElem?_map, Frame.getElem?_succ_trail hp, hnext]
        rfl
      refine ⟨_, _, hstep, ?_, hstep', Frame.codeOffset_stepAt _ _⟩
      rw [Frame.stepAt_eq _ hresult]
      rfl
    · intro hnot
      rw [jumpTo_of_not_isDestination hnot] at hresult
      refine ⟨?_, ⟨_, hstep, ?_⟩, ?_⟩
      · rw [hsteps, List.length_map]
        exact Frame.length_trail hp (Frame.next?_of_error hresult)
      · rw [Frame.stepAt_eq _ hresult]
        rfl
      · rw [execute_eq_run]
        exact Frame.run_status_of_error (List.mem_of_getElem? hp) hresult

/-- A jump over a byte that marks a destination, but is the data of a push, to an instruction that
marks one. -/
theorem execute_control_flow_jump :
    let message : Message := { gas := 100, code := [0x60, 0x05, 0x56, 0x60, 0x5b, 0x5b, 0x00] }
    let points := (frame .frontier message).trail (.start {} message.gas)
    let steps := (execute {} .frontier message true).1.steps
    message.code.length ≤ 2 ^ 64 ∧ ¬ Code.IsDestination message.code 4 ∧
      Code.IsDestination message.code 5 ∧
      ∃ p, points[1]? = some p ∧ (frame .frontier message).JumpsTo p (.ofNat 5) ∧
        ∃ s s', steps[1]? = some s ∧ s.status = .success ∧ steps[2]? = some s' ∧
          s'.codeOffset = 5 := by
  intro message points steps
  have addressable : message.code.length ≤ 2 ^ 64 := by decide
  have hdata : ¬ Code.IsDestination message.code 4 := by
    rw [← Code.getElem?_jumpTable]
    decide
  have hdestination : Code.IsDestination message.code 5 :=
    (Code.getElem?_jumpTable message.code 5).mp rfl
  have hpush : ((frame .frontier message).next? (.start {} message.gas)).any fun p =>
      decide ((frame .frontier message).instructionAt? p = some .jump ∧
        ((frame .frontier message).priceAt p : Int) ≤ p.machine.gas ∧
        p.machine.stack.items = [.ofNat 5]) := by
    decide
  obtain ⟨p, hnext, hpoint⟩ := (Option.any_eq_true _ _).mp hpush
  obtain ⟨hinstruction, hpaid, hoperands⟩ := of_decide_eq_true hpoint
  have hfirst : points[0]? = some (.start {} message.gas) := by
    rw [show points = _ from Frame.trail_of_some hnext]
    rfl
  have hp : points[1]? = some p := (Frame.getElem?_succ_trail hfirst).trans hnext
  have hjump : (frame .frontier message).JumpsTo p (.ofNat 5) := .jump hinstruction hpaid hoperands
  obtain ⟨-, -, -, hjumps⟩ := execute_control_flow {} .frontier message false
  exact ⟨addressable, hdata, hdestination, p, hp, hjump,
    (hjumps addressable 1 p (.ofNat 5) hp hjump).1 hdestination⟩

end Interpreter

end EvmDispatch
