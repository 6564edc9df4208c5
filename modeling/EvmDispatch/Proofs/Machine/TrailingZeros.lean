import EvmDispatch.Proofs.Machine.ControlFlow
import EvmDispatch.Proofs.Machine.Immediate
import EvmDispatch.Proofs.Machine.Termination
import Mathlib.Data.List.GetD

/-!
# Zeros behind the code and the call data

What lies behind the end of the code, and behind the end of the call data, reads as zero. So a run
does not notice whether there are zeros, unless it asks how long the code or the call data is. The
code may even end within the data of a push, where the scan for jump destinations goes on in the
zeros.
-/

namespace EvmDispatch

/-- A message with `n` zeros behind its code and `m` behind its call data. -/
def Message.followedByZeros (n m : Nat) (message : Message) : Message :=
  { message with
    code := message.code ++ List.replicate n 0
    input := message.input ++ List.replicate m 0 }

/-! ## Sequences of bytes -/

theorem getD_append_replicate {α : Type} (xs : List α) (n : Nat) (a : α) (i : Nat) :
    (xs ++ List.replicate n a).getD i a = xs.getD i a := by
  by_cases hi : i < xs.length
  · exact List.getD_append xs _ a i hi
  · have hle : xs.length ≤ i := Nat.le_of_not_lt hi
    rw [List.getD_append_right xs _ a i hle, List.getD_eq_default xs a hle,
      List.getD_eq_getElem?_getD, List.getElem?_getD_replicate_default_eq]

/-- Zeros that are missing are read as if they were there. -/
theorem readPadded_append_zeros (data : Bytes) (n offset size : Nat) :
    readPadded (data ++ List.replicate n 0) offset size = readPadded data offset size := by
  refine List.ext_getElem? fun i => ?_
  by_cases hi : i < size
  · rw [getElem?_readPadded _ _ hi, getElem?_readPadded _ _ hi, getD_append_replicate]
  · rw [List.getElem?_eq_none (by simpa [length_readPadded] using hi),
      List.getElem?_eq_none (by simpa [length_readPadded] using hi)]

/-- A word of data reads the same with zeros behind the data, wherever it starts. -/
theorem Word.loadPadded_append_zeros (data : Bytes) (n : Nat) (offset : Word) :
    loadPadded (data ++ List.replicate n 0) offset = loadPadded data offset := by
  rw [loadPadded_eq_readPadded, loadPadded_eq_readPadded]
  simp only [readPadded_append_zeros]

namespace Code

theorem jumpTableFrom_zeros (skip n : Nat) :
    jumpTableFrom skip (List.replicate n 0) = List.replicate n false := by
  induction n generalizing skip with
  | zero => cases skip <;> rfl
  | succ n ih =>
    rw [List.replicate_succ, List.replicate_succ]
    cases skip with
    | zero =>
      rw [jumpTableFrom, ih]
      rfl
    | succ skip => rw [jumpTableFrom, ih]

/-- Zeros are no jump destinations, even if a push takes some of them as its data. -/
theorem jumpTableFrom_append_zeros (skip : Nat) (bytes : Bytes) (n : Nat) :
    jumpTableFrom skip (bytes ++ List.replicate n 0) =
      jumpTableFrom skip bytes ++ List.replicate n false := by
  induction bytes generalizing skip with
  | nil =>
    rw [List.nil_append, jumpTableFrom_zeros]
    cases skip <;> rfl
  | cons b rest ih =>
    rw [List.cons_append]
    cases skip with
    | zero => rw [jumpTableFrom, jumpTableFrom, ih, List.cons_append]
    | succ skip => rw [jumpTableFrom, jumpTableFrom, ih, List.cons_append]

end Code

/-! ## One instruction -/

namespace Machine

/-- Asking depends on the answer only if there is room for it. -/
theorem perform_query {f : Frame} {offset : Nat} {op : QueryInstruction} (m : Machine) :
    perform f offset (.query op) m =
      if m.stack.depth < m.stack.limit then
        .ok .next (m.withItems (op.eval f offset m :: m.stack.items))
      else .error .stackOverflow m := by
  have hpush := push_apply (op.eval f offset m) m
  simp only [perform, bind, EStateM.bind, get_apply, hpush]
  by_cases room : m.stack.depth < m.stack.limit
  · simp only [if_pos room]
    rfl
  · simp only [if_neg room]

end Machine

namespace Interpreter

variable {r : Revision} {message : Message} {p : Point} {n m : Nat}

/-- Zeros behind the code change the opcode at no offset. -/
theorem opcodeAt_followedByZeros (offset : Nat) :
    (frame r (message.followedByZeros n m)).opcodeAt offset =
      (frame r message).opcodeAt offset := by
  rw [opcodeAt_frame, opcodeAt_frame]
  exact getD_append_replicate message.code n 0 offset

theorem immediateAt_followedByZeros (offset size : Nat) :
    (frame r (message.followedByZeros n m)).immediateAt offset size =
      (frame r message).immediateAt offset size := by
  simp only [Frame.immediateAt, opcodeAt_followedByZeros]

theorem jumpTo_followedByZeros (target : Word) :
    (frame r (message.followedByZeros n m)).jumpTo target = (frame r message).jumpTo target := by
  have htargets : ∀ goal, (frame r (message.followedByZeros n m)).jumpTargets.getD goal false =
      (frame r message).jumpTargets.getD goal false := by
    intro goal
    have htable : Code.jumpTable (message.followedByZeros n m).code =
        Code.jumpTable message.code ++ List.replicate n false :=
      Code.jumpTableFrom_append_zeros 0 message.code n
    simpa [frame, Frame.ofMessage, htable] using
      getD_append_replicate (Code.jumpTable message.code) n false goal
  unfold Frame.jumpTo
  simp only [htargets]

/-- Only an instruction that asks for a size can tell whether there are zeros. -/
theorem perform_followedByZeros {i : Instruction} (hcode : i ≠ .query .codeSize)
    (hinput : i ≠ .query .callDataSize) (offset : Nat) :
    Machine.perform (frame r (message.followedByZeros n m)) offset i =
      Machine.perform (frame r message) offset i := by
  cases i with
  | query op =>
    cases op with
    | codeSize => exact absurd rfl hcode
    | callDataSize => exact absurd rfl hinput
    | _ => rfl
  | callDataLoad =>
    have hload : ∀ start,
        Word.loadPadded (frame r (message.followedByZeros n m)).input start =
          Word.loadPadded (frame r message).input start :=
      Word.loadPadded_append_zeros message.input m
    simp only [Machine.perform, hload]
  | jump => simp only [Machine.perform, jumpTo_followedByZeros]
  | jumpIf => simp only [Machine.perform, jumpTo_followedByZeros]
  | push size => simp only [Machine.perform, immediateAt_followedByZeros]
  | _ => rfl

/-- Zeros behind the code and the data change no result of an instruction that does not ask for a
size. -/
theorem resultAt_followedByZeros
    (unsized : ∀ m, (frame r message).resultAt p = .ok .next m →
      (frame r message).instructionAt? p ≠ some (.query .codeSize) ∧
        (frame r message).instructionAt? p ≠ some (.query .callDataSize)) :
    (frame r (message.followedByZeros n m)).resultAt p = (frame r message).resultAt p := by
  have hopcode : (frame r (message.followedByZeros n m)).opcodeAt p.offset =
      (frame r message).opcodeAt p.offset := opcodeAt_followedByZeros p.offset
  refine Machine.executeAt_congr (by rw [hopcode]; rfl) (fun _ _ => rfl) fun i hi paid => ?_
  have hinstruction : (frame r message).instructionAt? p = some i :=
    Instruction.ofByte?_of_executable? hi
  by_cases hsize : i = .query .codeSize ∨ i = .query .callDataSize
  · obtain ⟨op, rfl⟩ : ∃ op, i = .query op := by
      rcases hsize with rfl | rfl
      · exact ⟨.codeSize, rfl⟩
      · exact ⟨.callDataSize, rfl⟩
    -- where there is room for the answer, the instruction would not fail
    have hfull : ¬ p.machine.stack.depth < p.machine.stack.limit := by
      intro room
      obtain ⟨m₁, hresult⟩ : ∃ m₁, (frame r message).resultAt p = .ok .next m₁ := by
        rw [Frame.resultAt, Machine.executeAt_apply p.machine hi, if_pos paid,
          Machine.perform_query]
        exact ⟨_, if_pos room⟩
      obtain ⟨hcode, hinput⟩ := unsized m₁ hresult
      rw [hinstruction] at hcode hinput
      rcases hsize with h | h
      · exact hcode (congrArg some h)
      · exact hinput (congrArg some h)
    rw [Machine.perform_query, Machine.perform_query]
    exact (if_neg hfull).trans (if_neg hfull).symm
  · have hcode : i ≠ .query .codeSize := fun h => hsize (.inl h)
    have hinput : i ≠ .query .callDataSize := fun h => hsize (.inr h)
    rw [perform_followedByZeros hcode hinput]

/-! ## Whole runs -/

/-- Code and call data are followed by zeros, as it were. Whatever the settings, the revision and
the message are, and however many zeros are put behind the code and behind the call data: if no step
of the run learns the size of the code or of the call data, then the run with the zeros is the same.
It has the same steps, status, gas left and output, and leaves the same in the buffer. -/
theorem execute_followedByZeros (e : Engine) (r : Revision) (message : Message) (n m : Nat)
    (observed : Bool)
    (unsized : ∀ s ∈ (execute e r message true).1.steps, s.status = .success →
      Instruction.ofByte? s.opcode ≠ some (.query .codeSize) ∧
        Instruction.ofByte? s.opcode ≠ some (.query .callDataSize)) :
    execute e r (message.followedByZeros n m) observed = execute e r message observed := by
  have hresult : ∀ p ∈ (frame r message).trail (.start e.settings message.gas),
      (frame r (message.followedByZeros n m)).resultAt p = (frame r message).resultAt p := by
    intro p hp
    refine resultAt_followedByZeros fun m₁ hnext => ?_
    have hstatus : ((frame r message).stepAt e.settings p).status = .success := by
      rw [Frame.stepAt_eq e.settings hnext]
      rfl
    rw [execute_eq_run, Frame.run_steps_observed] at unsized
    have hstep := unsized _ (List.mem_map_of_mem hp) hstatus
    rwa [Frame.opcode_stepAt] at hstep
  have hrun : (frame r (message.followedByZeros n m)).run e.settings message.gas observed =
      (frame r message).run e.settings message.gas observed :=
    Frame.run_eq_of_resultAt (fun p _ => opcodeAt_followedByZeros p.offset) hresult
  have hmessage : (message.followedByZeros n m).gas = message.gas := rfl
  unfold execute Engine.run
  rw [hmessage]
  simp only [frame] at hrun
  rw [hrun]

/-- A code that loads a word from the last byte of its call data on, jumps, and ends within the data
of a push. -/
theorem execute_followedByZeros_truncated :
    let e : Engine := {}
    let message : Message :=
      { gas := 100
        code := [0x60, 0x1e, 0x35, 0x60, 0x06, 0x56, 0x5b, 0x62, 0x5b]
        input := List.replicate 31 0xff }
    (∀ s ∈ (execute e .frontier message true).1.steps, s.status = .success →
      Instruction.ofByte? s.opcode ≠ some (.query .codeSize) ∧
        Instruction.ofByte? s.opcode ≠ some (.query .callDataSize)) ∧
      execute e .frontier (message.followedByZeros 4 7) true =
        execute e .frontier message true := by
  intro e message
  have hsteps : ((execute e .frontier message true).1.steps.all fun s =>
      Instruction.ofByte? s.opcode ≠ some (.query .codeSize) ∧
        Instruction.ofByte? s.opcode ≠ some (.query .callDataSize)) = true :=
    Frame.of_runWithin (n := 8) (fun reply => reply.steps.all fun s =>
      Instruction.ofByte? s.opcode ≠ some (.query .codeSize) ∧
        Instruction.ofByte? s.opcode ≠ some (.query .callDataSize)) (by decide +kernel)
  have unsized : ∀ s ∈ (execute e .frontier message true).1.steps, s.status = .success →
      Instruction.ofByte? s.opcode ≠ some (.query .codeSize) ∧
        Instruction.ofByte? s.opcode ≠ some (.query .callDataSize) := by
    intro s hs _
    exact of_decide_eq_true (List.all_eq_true.mp hsteps s hs)
  exact ⟨unsized, execute_followedByZeros e .frontier message 4 7 true unsized⟩

end Interpreter

end EvmDispatch
