import EvmDispatch.Backend.Echo
import EvmDispatch.Backend.FastPath
import EvmDispatch.Backend.Interpreter
import EvmDispatch.Proofs.Machine.Accounting
import EvmDispatch.Proofs.Vm.Refusal

/-!
# The gas that a call gives back

The gas that a caller has left is what the last answer to the call says, and an answer is taken at
its word: nothing compares it with the gas of the call. So a call gives back more than it got if and
only if the engine that decides it says so (`exec_gas_le_iff`). The engines of this library never
say so, and where only such engines serve a call, no gas is created (`exec_gas_le`).
-/

namespace EvmDispatch

/-- The gas that an answer gives back: none unless it completes or asks to be undone. -/
def Reply.returned (reply : Reply) : Nat :=
  if reply.status = .success ∨ reply.status = .revert then reply.gasLeft.toNat else 0

/-- An answer that gives back more gas than there was. -/
def Reply.Overstates (reply : Reply) (gas : Int) : Prop :=
  (reply.status = .success ∨ reply.status = .revert) ∧ gas < reply.gasLeft

/-- A backend that never gives back more gas than it was given. -/
def Backend.Meters (b : Backend) : Prop :=
  ∀ s r message observed, ¬ (b.execute s r message observed).1.Overstates message.gas

/-! ## Answers -/

namespace Reply

theorem gasLeft_outcome? (reply : Reply) :
    (reply.outcome?.getD Vm.declined).gasLeft = reply.returned := by
  unfold returned outcome?
  cases reply.status <;> simp [Outcome.ofAnswer?, Outcome.gasLeft, Vm.declined]

/-- The gas that is given back is too much only if it is overstated. -/
theorem returned_le_iff {reply : Reply} {gas : Nat} :
    reply.returned ≤ gas ↔ ¬ reply.Overstates gas := by
  unfold returned Overstates
  by_cases hstatus : reply.status = .success ∨ reply.status = .revert
  · rw [if_pos hstatus, Int.toNat_le, not_and, Int.not_lt]
    exact ⟨fun h _ => h, fun h => h hstatus⟩
  · rw [if_neg hstatus]
    exact ⟨fun _ h => hstatus h.1, fun _ => Nat.zero_le gas⟩

end Reply

namespace Vm

variable {vm : Vm} {gas : Nat} {ctx : CallContext} {message : Message} {observed : Bool} {log : Log}
  {r : Revision}

theorem exists_last_answer (vm : Vm) (r : Revision) (message : Message) (observed : Bool)
    (log : Log) : ∃ last, (vm.answers r message observed log).getLast? = some last := by
  by_cases hstatus : (vm.reply r message observed).status = .rejected
  · rw [answers_of_rejected hstatus]
    exact ⟨_, List.getLast?_eq_some_getLast (List.cons_ne_nil _ _)⟩
  · rw [answers_of_taken hstatus]
    exact ⟨_, rfl⟩

/-- A call that passes the checks gives back what the last answer says. -/
theorem exec_gas (vm : Vm) (observed : Bool) (log : Log) (h : ctx.message? gas = .ok message)
    {last : Reply}
    (hlast : (vm.answers ctx.schedule.revision message observed log).getLast? = some last) :
    (vm.exec gas ctx observed log).1.gas = last.returned := by
  rw [exec_result vm observed log h, settled, lastOutcome, hlast]
  exact last.gasLeft_outcome?

/-- A refused call gives back all gas. Any other call gives back what the answer that decides it
says, if that one completes or asks to be undone, and nothing otherwise; so it gives back more than
it got if and only if that answer says more. -/
theorem exec_gas_le_iff (vm : Vm) (gas : Nat) (ctx : CallContext) (observed : Bool) (log : Log) :
    let result := (vm.exec gas ctx observed log).1
    (∀ e, result.outcome = .error e → result.gas = gas) ∧
    ∀ outcome, result.outcome = .ok outcome →
      ∃ message last, message.Conveys gas ctx ∧
        (vm.answers ctx.schedule.revision message observed log).getLast? = some last ∧
        result.gas = last.returned ∧ (result.gas ≤ gas ↔ ¬ last.Overstates gas) := by
  intro result
  cases hmessage : ctx.message? gas with
  | error e =>
    have hresult : result = { outcome := .error e, gas, steps := [] } :=
      congrArg Prod.fst (exec_of_error hmessage)
    rw [hresult]
    exact ⟨fun _ _ => rfl, nofun⟩
  | ok message =>
    obtain ⟨outcome, steps, hsettled⟩ := exec_eq_settled vm observed log hmessage
    have hresult : result.outcome = .ok outcome := congrArg CallResult.outcome hsettled
    have hconveys := CallContext.conveys_of_message? hmessage
    obtain ⟨last, hlast⟩ := exists_last_answer vm ctx.schedule.revision message observed log
    have hgas : result.gas = last.returned := exec_gas vm observed log hmessage hlast
    rw [hresult, hgas]
    exact ⟨nofun, fun _ _ => ⟨message, last, hconveys, hlast, rfl, Reply.returned_le_iff⟩⟩

/-- Nothing keeps an engine from giving back gas that it was not given, neither directly nor as the
fallback of another one. -/
theorem exec_gas_overstated :
    let generous : Backend := ({ gasLeft := some 11 } : Script).backend
    let direct : Vm := { engine := { id := ⟨.supplied 0, 0⟩, backend := generous, state := () } }
    let relieved : Vm :=
      { engine :=
          { id := ⟨.supplied 1, 0⟩, backend := ({ status := .rejected } : Script).backend
            state := () }
        fallback := some
          { name := "second", constructor := .ofBackend (.supplied 2) generous, options := [] } }
    let first := (direct.exec 10 {} false {}).1
    let second := (relieved.exec 10 {} false {}).1
    (first.outcome = .ok (.success [] 11) ∧ ¬ first.gas ≤ 10) ∧
      (second.outcome = .ok (.success [] 11) ∧ ¬ second.gas ≤ 10) := by
  intro generous direct relieved first second
  have hmessage : ({} : CallContext).message? 10 = .ok { gas := 10 } := rfl
  have hfirst : first = settled (.success [] 11) [] := exec_result direct false {} hmessage
  have hsecond : second = settled (.success [] 11) [] := exec_result relieved false {} hmessage
  rw [hfirst, hsecond]
  exact ⟨⟨rfl, by decide⟩, rfl, by decide⟩

/-- An answer to a call is that of the instance or of its relief. -/
theorem mem_answers {reply : Reply} (h : reply ∈ vm.answers r message observed log) :
    reply = vm.reply r message observed ∨
      ∃ fallback b, vm.fallback = some fallback ∧
        fallback.constructor.make (log.nextId fallback.constructor.origin).serial = .ok b ∧
        reply = (vm.substitute fallback b log).reply r message observed := by
  by_cases hstatus : (vm.reply r message observed).status = .rejected
  · rw [answers_of_rejected hstatus] at h
    rcases List.mem_cons.mp h with h | h
    · exact .inl h
    · obtain ⟨second, hsecond, rfl⟩ := List.mem_map.mp h
      have hrelief : vm.relief? log = some second := Option.mem_toList.mp hsecond
      unfold relief? at hrelief
      split at hrelief
      · cases hrelief
      · rename_i fallback hfallback
        split at hrelief
        · rename_i b hmake
          obtain rfl := Option.some.inj hrelief
          exact .inr ⟨fallback, b, hfallback, hmake, rfl⟩
        · cases hrelief
  · rw [answers_of_taken hstatus] at h
    exact .inl (List.mem_singleton.mp h)

/-- Where all engines that may serve a call meter it, no gas is created. -/
theorem exec_gas_le (vm : Vm) (meters : vm.engine.backend.Meters)
    (relief : ∀ fallback n b, vm.fallback = some fallback → fallback.constructor.make n = .ok b →
      b.Meters) (gas : Nat) (ctx : CallContext) (observed : Bool) (log : Log) :
    (vm.exec gas ctx observed log).1.gas ≤ gas := by
  cases hmessage : ctx.message? gas with
  | error e =>
    simp only [exec_of_error hmessage, Nat.le_refl]
  | ok message =>
    obtain ⟨last, hlast⟩ := exists_last_answer vm ctx.schedule.revision message observed log
    rw [exec_gas vm observed log hmessage hlast, Reply.returned_le_iff,
      ← (CallContext.conveys_of_message? hmessage).gas]
    rcases mem_answers (List.mem_of_getLast? hlast) with rfl | ⟨fallback, b, hfallback, hmake, rfl⟩
    · exact meters _ _ _ _
    · exact relief fallback _ b hfallback hmake _ _ _ _

end Vm

/-! ## The engines of this library -/

/-- No run gives back more gas than it was given. -/
theorem Frame.run_meters (settings : Settings) (r : Revision) (message : Message)
    (jumpTargets : List Bool) (observed : Bool) :
    ¬ ((Frame.ofMessage r message jumpTargets).run settings message.gas observed).Overstates
      message.gas := by
  rintro ⟨hstatus, hgas⟩
  obtain ⟨last, hlast, hends⟩ := run_ends (ofMessage r message jumpTargets) settings message.gas
    observed
  have haccount := hends.account hlast
  rw [if_pos hstatus] at haccount
  omega

theorem Engine.run_meters (e : Engine) (r : Revision) (message : Message)
    (jumpTargets : List Bool) (observed : Bool) :
    ¬ (e.run r message jumpTargets observed).1.Overstates message.gas :=
  Frame.run_meters e.settings r message jumpTargets observed

theorem Interpreter.meters (settings : Settings) : (backendWith settings).Meters :=
  fun (e : Engine) r message observed =>
    e.run_meters r message (Code.jumpTable message.code) observed

theorem FastPath.meters : FastPath.backend.Meters := by
  intro (e : Engine) r message observed
  show ¬ (execute e r message observed).1.Overstates message.gas
  unfold execute
  split
  · exact e.run_meters r message [] observed
  · rintro ⟨hstatus, -⟩
    rcases hstatus with h | h <;> cases h

theorem Echo.meters : Echo.backend.Meters := by
  intro (e : Engine) r message observed
  show ¬ (execute e message).1.Overstates message.gas
  unfold execute
  split
  · rintro ⟨hstatus, -⟩
    rcases hstatus with h | h <;> cases h
  · rintro ⟨-, hgas⟩
    have hgas : message.gas < message.gas - cost e message.code := hgas
    omega

end EvmDispatch
