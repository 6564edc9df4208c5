import EvmDispatch.Proofs.Vm.Answers
import Mathlib.Algebra.Group.Int.Defs
import Mathlib.Algebra.GroupWithZero.Nat

/-!
# Calls that are refused

A call is refused for the first of its objections, and then nothing has happened: the gas, the
virtual machine and the log are those from before. A call without objections reaches every instance
that has a part in it as the caller has put it, and always comes to an outcome. A new instance of
the fallback is behind the same checks as the first instance, but it gets the same gas and the same
context, so that its checks cannot find what the first ones have not (`Exit.message_eq`).
-/

namespace EvmDispatch

/-- The reasons to refuse a call, in the order in which they count. -/
def CallContext.objections (ctx : CallContext) (gas : Nat) : List PreconditionError :=
  (if 2 ^ 63 - 1 < gas then [.gasOutOfRange gas] else []) ++
    (if 2 ^ 63 - 1 < ctx.env.gasLimit then [.gasLimitOutOfRange ctx.env.gasLimit] else []) ++
    (if ctx.env.number < 0 then [.negativeBlockNumber ctx.env.number] else []) ++
    (if ctx.env.timestamp < 0 then [.negativeTimestamp ctx.env.timestamp] else []) ++
    (if 2 ^ 31 - 1 < ctx.depth then [.depthOutOfRange ctx.depth] else [])

/-- A message says what a caller has said, although its integers have fewer bits. -/
structure Message.Conveys (message : Message) (gas : Nat) (ctx : CallContext) : Prop where
  gas : message.gas = gas
  gas_le : message.gas ≤ 2 ^ 63 - 1
  depth : message.depth = ctx.depth
  depth_le : message.depth ≤ 2 ^ 31 - 1
  caller : message.caller = ctx.caller
  callee : message.callee = ctx.callee
  code : message.code = ctx.code
  input : message.input = ctx.input
  isStatic : message.isStatic = ctx.isStatic

namespace CallContext

variable {ctx : CallContext} {gas : Nat}

/-- The checks find the first objection, if there is one. -/
theorem message?_eq (ctx : CallContext) (gas : Nat) :
    ctx.message? gas =
      match (ctx.objections gas).head? with
      | some e => .error e
      | none => .ok
        { depth := ctx.depth, gas := gas, caller := ctx.caller, callee := ctx.callee
          code := ctx.code, input := ctx.input, isStatic := ctx.isStatic } := by
  have hmax64 : 2 ^ 63 - 1 = maxSigned64 := rfl
  have hmax32 : 2 ^ 31 - 1 = maxSigned32 := rfl
  rw [message?, objections, hmax64, hmax32]
  by_cases hgas : maxSigned64 < gas
  · rw [if_pos hgas, if_pos hgas]
    rfl
  rw [if_neg hgas, if_neg hgas]
  by_cases hgasLimit : maxSigned64 < ctx.env.gasLimit
  · rw [if_pos hgasLimit, if_pos hgasLimit]
    rfl
  rw [if_neg hgasLimit, if_neg hgasLimit]
  by_cases hnumber : ctx.env.number < 0
  · rw [if_pos hnumber, if_pos hnumber]
    rfl
  rw [if_neg hnumber, if_neg hnumber]
  by_cases htimestamp : ctx.env.timestamp < 0
  · rw [if_pos htimestamp, if_pos htimestamp]
    rfl
  rw [if_neg htimestamp, if_neg htimestamp]
  by_cases hdepth : maxSigned32 < ctx.depth
  · rw [if_pos hdepth, if_pos hdepth]
    rfl
  · rw [if_neg hdepth, if_neg hdepth]
    rfl

/-- A call is refused for the first objection. -/
theorem message?_of_objection {e : PreconditionError} (h : (ctx.objections gas).head? = some e) :
    ctx.message? gas = .error e := by
  rw [message?_eq, h]

theorem message?_of_no_objection (h : ctx.objections gas = []) :
    ∃ message, ctx.message? gas = .ok message := by
  rw [message?_eq, h]
  exact ⟨_, rfl⟩

/-- The message says what the caller has said. -/
theorem conveys_of_message? {message : Message} (h : ctx.message? gas = .ok message) :
    message.Conveys gas ctx := by
  rw [message?_eq] at h
  split at h
  · cases h
  · rename_i hnone
    obtain rfl := Except.ok.inj h
    have hobjections := List.head?_eq_none_iff.mp hnone
    unfold objections at hobjections
    simp only [List.append_eq_nil_iff, ite_eq_right_iff, List.cons_ne_nil, imp_false]
      at hobjections
    obtain ⟨⟨⟨⟨hgas, -⟩, -⟩, -⟩, hdepth⟩ := hobjections
    have hgas_le : (gas : Int) ≤ 2 ^ 63 - 1 := by omega
    have hdepth_le : (ctx.depth : Int) ≤ 2 ^ 31 - 1 := by omega
    exact ⟨rfl, hgas_le, rfl, hdepth_le, rfl, rfl, rfl, rfl, rfl⟩

end CallContext

namespace Vm

variable {vm : Vm} {r : Revision} {message : Message} {observed : Bool} {log : Log}

/-- Whoever executes the call gets the same message. -/
theorem Exit.message_eq {events : List Event} (h : vm.Exit r message observed log events)
    {id : InstanceId} {r' : Revision} {message' : Message} {observed' : Bool}
    (hmem : .executed id r' message' observed' ∈ events) : message' = message := by
  cases h with
  | alone =>
    obtain ⟨-, -, hmessage, -⟩ := Event.executed.inj (List.mem_singleton.mp hmem)
    exact hmessage
  | deserted given make =>
    rcases List.mem_cons.mp hmem with h | h
    · exact (Event.executed.inj h).2.2.1
    · cases List.mem_singleton.mp h
  | relieved given make =>
    simp only [List.mem_cons, List.mem_append, Backend.configurations, List.mem_map] at hmem
    rcases hmem with h | h | ⟨o, -, h⟩ | h | h | h
    · exact (Event.executed.inj h).2.2.1
    · cases h
    · cases h
    · exact (Event.executed.inj h).2.2.1
    · cases h
    · cases h

theorem Exit.head?_eq {events : List Event} (h : vm.Exit r message observed log events) :
    events.head? = some (vm.callEvent r message observed) := by
  cases h <;> rfl

/-- A call is refused if and only if there is an objection, for the first one. A refusal changes
nothing and tells nobody anything. Otherwise the instance executes the call first, and every
instance that executes it gets what the caller has said; once one has, there is an outcome. -/
theorem exec_refusal_exact (vm : Vm) (gas : Nat) (ctx : CallContext) (observed : Bool) (log : Log) :
    let done := vm.exec gas ctx observed log
    (∀ e, done.1.outcome = .error e ↔ (ctx.objections gas).head? = some e) ∧
    (∀ e, done.1.outcome = .error e →
      done = ({ outcome := .error e, gas, steps := [] }, vm, log)) ∧
    ∃ events, done.2.2.instanceEvents = log.instanceEvents ++ events ∧
      (ctx.objections gas = [] → ∃ message, message.Conveys gas ctx ∧
        events.head? = some (vm.callEvent ctx.schedule.revision message observed)) ∧
      ∀ id r message seen, .executed id r message seen ∈ events →
        message.Conveys gas ctx ∧ ∃ outcome, done.1.outcome = .ok outcome := by
  intro done
  cases hobjections : ctx.objections gas with
  | cons first rest =>
    have hdone : done = ({ outcome := .error first, gas, steps := [] }, vm, log) :=
      exec_of_error (CallContext.message?_of_objection (by rw [hobjections]; rfl))
    rw [hdone]
    refine ⟨fun e => ?_, fun e he => ?_, [], ?_, nofun, nofun⟩
    · simp
    · obtain rfl := Except.error.inj he
      rfl
    · exact (List.append_nil _).symm
  | nil =>
    obtain ⟨message, hmessage⟩ := CallContext.message?_of_no_objection hobjections
    have hconveys := CallContext.conveys_of_message? hmessage
    obtain ⟨outcome, steps, hresult⟩ := exec_eq_settled vm observed log hmessage
    have hresult : done.1.outcome = .ok outcome := congrArg CallResult.outcome hresult
    obtain ⟨events, hevents, hexit⟩ := exec_events vm observed log hmessage
    rw [hresult]
    refine ⟨fun e => ?_, nofun, events, hevents, fun _ => ?_, ?_⟩
    · simp
    · exact ⟨message, hconveys, hexit.head?_eq⟩
    · intro id r message' seen hmem
      rw [hexit.message_eq hmem]
      exact ⟨hconveys, outcome, rfl⟩

end Vm

end EvmDispatch
