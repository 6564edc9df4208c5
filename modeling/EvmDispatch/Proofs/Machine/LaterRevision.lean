import EvmDispatch.Proofs.Machine.Lockstep
import EvmDispatch.Proofs.Machine.Termination

/-!
# Runs under a later revision

A revision adds instructions and takes none away, and of the prices only that of reading the storage
has changed. No instruction looks at the revision once it is paid for. So a run that meets no
unknown instruction goes alike under all later revisions, as far as it does not read the storage
across the change of the price (`Frame.run_later_revision`).
-/

namespace EvmDispatch

namespace Instruction

variable {r r' : Revision}

/-- An instruction that may be executed may be executed under later revisions. -/
theorem executable?_of_le (later : r ≤ r') {opcode : UInt8} {i : Instruction}
    (h : executable? r opcode = some i) : executable? r' opcode = some i := by
  unfold executable? ofOpcode? at h ⊢
  simp only [Option.filter_eq_some_iff, decide_eq_true_eq] at h ⊢
  obtain ⟨⟨hbyte, hintroduced⟩, hvalid⟩ := h
  exact ⟨⟨hbyte, Nat.le_trans hintroduced later⟩, hvalid⟩

/-- That two revisions are on the same side of the change of the price of reading the storage. -/
def SamePrices (r r' : Revision) : Prop :=
  r < .tangerineWhistle ∧ r' < .tangerineWhistle ∨ .tangerineWhistle ≤ r ∧ .tangerineWhistle ≤ r'

/-- Only the price of loading a word from the storage depends on the revision. -/
theorem price_congr {i : Instruction} (h : SamePrices r r' ∨ i ≠ .storageLoad) :
    i.price r' = i.price r := by
  cases i with
  | storageLoad =>
    rcases h with (⟨before, before'⟩ | ⟨after, after'⟩) | h
    · have hr : ¬ Revision.tangerineWhistle ≤ r := Nat.not_le_of_lt before
      have hr' : ¬ Revision.tangerineWhistle ≤ r' := Nat.not_le_of_lt before'
      rw [price, price, if_neg hr, if_neg hr']
    · rw [price, price, if_pos after, if_pos after']
    · exact absurd rfl h
  | _ => rfl

end Instruction

namespace Frame

variable {r r' : Revision} {message : Message} {targets : List Bool}

/-- Once it is paid for, no instruction looks at the revision. -/
theorem perform_ofMessage (r r' : Revision) (message : Message) (targets : List Bool)
    (offset : Nat) (i : Instruction) :
    Machine.perform (ofMessage r' message targets) offset i =
      Machine.perform (ofMessage r message targets) offset i := by
  cases i <;> rfl

/-- What may be executed and costs the same does the same under a later revision. -/
theorem resultAt_of_later (later : r ≤ r') {p : Point}
    (defined : ∀ m, (ofMessage r message targets).resultAt p ≠ .error .undefinedInstruction m)
    (same : Instruction.SamePrices r r' ∨
      (ofMessage r message targets).instructionAt? p ≠ some .storageLoad) :
    (ofMessage r' message targets).resultAt p = (ofMessage r message targets).resultAt p := by
  cases hi : Instruction.executable? r ((ofMessage r message targets).opcodeAt p.offset) with
  | none => exact absurd (Machine.executeAt_of_none p.machine hi) (defined p.machine)
  | some i =>
    have hlater := Instruction.executable?_of_le later hi
    refine Machine.executeAt_congr (hlater.trans hi.symm) ?_ fun j _ _ =>
      congrFun (perform_ofMessage r r' message targets p.offset j) _
    intro j hj
    refine Instruction.price_congr (same.imp_right fun h => ?_)
    rintro rfl
    exact h (Instruction.ofByte?_of_executable? hj)

/-- Revisions are compatible with the earlier ones. Whatever the settings, the message and the jump
destinations are: a run that does not end with an undefined instruction is the same under every
later revision, with the same steps, status, gas and output, if reading the storage costs the same
or the run does not read it. -/
theorem run_later_revision (settings : Settings) (r r' : Revision) (message : Message)
    (targets : List Bool) (observed : Bool) (later : r ≤ r')
    (defined : ((ofMessage r message targets).run settings message.gas true).status ≠
      .undefinedInstruction)
    (same : Instruction.SamePrices r r' ∨
      ∀ s ∈ ((ofMessage r message targets).run settings message.gas true).steps,
        Instruction.ofByte? s.opcode ≠ some .storageLoad) :
    (ofMessage r' message targets).run settings message.gas observed =
      (ofMessage r message targets).run settings message.gas observed := by
  refine run_eq_of_resultAt (fun p _ => rfl) fun p hp => resultAt_of_later later ?_ ?_
  · intro m hm
    exact defined (run_status_of_error hp hm)
  · exact same.imp_right fun h => instructionAt?_ne_of_steps h p hp

/-- A code that reads the storage and returns a part of the memory. -/
theorem run_later_revision_storage :
    let message : Message :=
      { gas := 1000, code := [0x60, 0x07, 0x54, 0x60, 0x04, 0x60, 0x02, 0xf3] }
    let run := fun r => (Frame.ofMessage r message []).run {} message.gas true
    (Revision.tangerineWhistle ≤ .constantinople) ∧
      (run .tangerineWhistle).status ≠ .undefinedInstruction ∧
      Instruction.SamePrices .tangerineWhistle .constantinople ∧
      run .constantinople = run .tangerineWhistle := by
  intro message run
  have later : Revision.tangerineWhistle ≤ .constantinople := by decide
  have hstatus : ((run .tangerineWhistle).status == .success) = true :=
    of_runWithin (n := 5) (fun reply => reply.status == .success) (by decide +kernel)
  have defined : (run .tangerineWhistle).status ≠ .undefinedInstruction := by
    rw [eq_of_beq hstatus]
    nofun
  have same : Instruction.SamePrices .tangerineWhistle .constantinople :=
    .inr ⟨by decide, by decide⟩
  exact ⟨later, defined, same,
    run_later_revision {} _ _ message [] true later defined (.inl same)⟩

end Frame

end EvmDispatch
