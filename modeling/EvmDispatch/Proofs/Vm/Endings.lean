import EvmDispatch.Proofs.Machine.ControlFlow
import EvmDispatch.Proofs.Machine.Endings
import EvmDispatch.Proofs.Vm.Dispatch
import EvmDispatch.Proofs.Vm.Refusal

/-!
# Why calls of the interpreter fail

The virtual machine hands on the status by which a run has ended, so that what the end of the run
tells, the outcome tells too. Nothing but an instruction that is left out comes to an internal error
(`Interpreter.run_endings`).
-/

namespace EvmDispatch

/-- Of the statuses that runs end by, one is reported as an internal error. -/
theorem Outcome.internalError_iff {reply : Reply} {outcome : Outcome} {code : Int}
    {r : Revision} {opcode : UInt8} {m : Machine} (ending : Ending r opcode m reply.status)
    (h : reply.outcome? = some outcome) :
    outcome = .failure (.internalError code) ↔ code = -1 ∧ reply.status = .internalError := by
  obtain ⟨status, gasLeft, output, steps⟩ := reply
  have hstatus : status ∈ _ := ending.listed
  simp only [List.mem_cons, List.not_mem_nil, or_false] at hstatus
  unfold Reply.outcome? Outcome.ofAnswer? at h
  -- each of the nine statuses has an outcome of its own
  rcases hstatus with rfl | rfl | rfl | rfl | rfl | rfl | rfl | rfl | rfl
  all_goals obtain rfl := Option.some.inj h
  all_goals simp [Status.raw, eq_comm]

namespace Interpreter

variable {e : Engine} {r : Revision} {message : Message} {observed : Bool}

/-- A run of the interpreter ends as its status tells, whether it is observed or not. -/
theorem ending_of_execute (e : Engine) (r : Revision) (observed : Bool)
    (funded : 0 ≤ message.gas) :
    ∃ p, ((frame r message).trail (.start e.settings message.gas)).getLast? = some p ∧
      (execute e r message true).1.steps.getLast? =
        some ((frame r message).stepAt e.settings p) ∧
      Ending r ((frame r message).stepAt e.settings p).opcode p.machine
        (execute e r message observed).1.status := by
  obtain ⟨p, hp, hends⟩ := (frame r message).run_ends e.settings message.gas observed
  have hmem := List.mem_of_getLast? hp
  have hfunded := Frame.gas_nonneg_of_mem_trail funded hmem
  have hheight := (Frame.funded_of_mem_trail hmem).height
  refine ⟨p, hp, ?_, ?_⟩
  · rw [execute_eq_run, Frame.run_steps_observed, List.getLast?_map, hp]
    rfl
  · rw [execute_eq_run, Frame.opcode_stepAt]
    exact hends.ending hfunded hheight

/-- What the end of a run tells. A run of the interpreter that starts without a debt ends by one of
nine statuses, and whether it is an undefined instruction, one that is left out, a request to undo
the execution or its completion is told by the last instruction alone; behind the end of the code
that is the one that stops. So a call that a virtual machine around the interpreter executes comes
to an internal error if and only if its last instruction is one that is left out, and the code of
the error is then the number of that status. -/
theorem run_endings :
    (∀ (e : Engine) (r : Revision) (message : Message) (observed : Bool), 0 ≤ message.gas →
      ∃ p last, ((frame r message).trail (.start e.settings message.gas)).getLast? = some p ∧
        (execute e r message true).1.steps.getLast? = some last ∧
        last = (frame r message).stepAt e.settings p ∧
        Ending r last.opcode p.machine (execute e r message observed).1.status) ∧
      ∀ (settings : Settings) (id : InstanceId) (e : Engine) (fallback : Option Fallback)
        (tracing : Bool) (gas : Nat) (ctx : CallContext) (observed : Bool) (log : Log) (code : Int),
        let vm : Vm :=
          { engine := { id, backend := backendWith settings, state := e }, fallback, tracing }
        (vm.exec gas ctx observed log).1.outcome = .ok (.failure (.internalError code)) ↔
          code = -1 ∧ ∃ message last, ctx.message? gas = .ok message ∧
            (execute e ctx.schedule.revision message true).1.steps.getLast? = some last ∧
            IsLeftOut ctx.schedule.revision last.opcode := by
  refine ⟨?_, ?_⟩
  · intro e r message observed funded
    obtain ⟨p, hp, hlast, ending⟩ := ending_of_execute e r observed funded
    exact ⟨p, _, hp, hlast, rfl, ending⟩
  · intro settings id e fallback tracing gas ctx observed log code vm
    cases hmessage : ctx.message? gas with
    | error refusal =>
      rw [Vm.exec_of_error hmessage]
      constructor
      · intro h
        cases h
      · rintro ⟨-, message, last, h, -⟩
        cases h
    | ok message =>
      have funded : 0 ≤ message.gas := by
        rw [(CallContext.conveys_of_message? hmessage).gas]
        exact Int.natCast_nonneg gas
      have hreply : vm.reply ctx.schedule.revision message observed =
          (execute e ctx.schedule.revision message (tracing || observed)).1 := rfl
      obtain ⟨p, hp, hlast, ending⟩ :=
        ending_of_execute e ctx.schedule.revision (tracing || observed) funded
      rw [← hreply] at ending
      have htaken : (vm.reply ctx.schedule.revision message observed).status ≠ .rejected :=
        Frame.run_status_ne_rejected _ _ _ _
      obtain ⟨outcome, log', houtcome, hexec, -⟩ := Vm.exec_of_taken log hmessage htaken
      have hresult : (vm.exec gas ctx observed log).1.outcome = .ok outcome := by
        rw [hexec]
        rfl
      rw [hresult, Except.ok.injEq, Outcome.internalError_iff ending houtcome, ending.leftOut]
      constructor
      · rintro ⟨hcode, hleft⟩
        exact ⟨hcode, message, _, rfl, hlast, hleft⟩
      · rintro ⟨hcode, message', last, hmessage', hlast', hleft⟩
        cases hmessage'
        cases hlast.symm.trans hlast'
        exact ⟨hcode, hleft⟩

/-- A call of a code that asks for a balance, which is left out. -/
theorem run_endings_balance :
    let message : Message := { gas := 10, code := [0x30, 0x31] }
    0 ≤ message.gas ∧
      ∃ p last, ((frame .frontier message).trail (.start {} message.gas)).getLast? = some p ∧
        (execute {} .frontier message true).1.steps.getLast? = some last ∧
        last = (frame .frontier message).stepAt {} p ∧
        Ending .frontier last.opcode p.machine (execute {} .frontier message false).1.status := by
  intro message
  have funded : 0 ≤ message.gas := by decide
  exact ⟨funded, run_endings.1 {} .frontier message false funded⟩

end Interpreter

end EvmDispatch
