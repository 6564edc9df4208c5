import EvmDispatch.Proofs.Vm.Dispatch

/-!
# The answers to a call

A call that passes the checks is answered by the instance of the virtual machine and, if that one
declines, by a new instance of the fallback, if there is a fallback that can be made. These answers
are all that a call depends on: its result is a function of them (`exec_result`), and the events of
instances follow how many there are (`exec_events`). What is left of the virtual machine is itself
but for the state of its instance (`exec_kept`).
-/

namespace EvmDispatch.Vm

/-- The virtual machine around a new instance of the fallback, if one can be made. -/
def relief? (vm : Vm) (log : Log) : Option Vm :=
  match vm.fallback with
  | none => none
  | some fallback =>
    match fallback.constructor.make (log.nextId fallback.constructor.origin).serial with
    | .ok b => some (vm.substitute fallback b log)
    | .error _ => none

/-- The answers to a call, in the order in which they are given. -/
def answers (vm : Vm) (r : Revision) (message : Message) (observed : Bool) (log : Log) :
    List Reply :=
  let reply := vm.reply r message observed
  if reply.status = .rejected then
    reply :: (vm.relief? log).toList.map (·.reply r message observed)
  else [reply]

/-- The outcome that the last of the answers stands for. -/
def lastOutcome (answers : List Reply) : Outcome :=
  (answers.getLast?.bind Reply.outcome?).getD declined

/-- The events of instances in a call that passes the checks. -/
inductive Exit (vm : Vm) (r : Revision) (message : Message) (observed : Bool) (log : Log) :
    List Event → Prop where
  | alone : Exit vm r message observed log [vm.callEvent r message observed]
  | deserted {fallback : Fallback} {e : Plugin.AbiError} (given : vm.fallback = some fallback)
    (make : fallback.constructor.make (log.nextId fallback.constructor.origin).serial = .error e) :
    Exit vm r message observed log
      [vm.callEvent r message observed, .refused (log.nextId fallback.constructor.origin) e]
  | relieved {fallback : Fallback} {b : Backend} (given : vm.fallback = some fallback)
    (make : fallback.constructor.make (log.nextId fallback.constructor.origin).serial = .ok b) :
    Exit vm r message observed log
      (vm.callEvent r message observed :: .created (log.nextId fallback.constructor.origin) ::
        (b.configurations (log.nextId fallback.constructor.origin) fallback.options ++
          [(vm.substitute fallback b log).callEvent r message observed,
            .released (log.nextId fallback.constructor.origin)]))

/-- What no call changes of a virtual machine: all but the state of its instance. -/
structure Kept (vm vm' : Vm) : Prop where
  id : vm'.engine.id = vm.engine.id
  backend : vm'.engine.backend = vm.engine.backend
  fallback : vm'.fallback = vm.fallback
  tracing : vm'.tracing = vm.tracing

variable {vm : Vm} {gas : Nat} {ctx : CallContext} {message : Message} {observed : Bool} {log : Log}
  {r : Revision}

theorem Kept.trans {vm₁ vm₂ vm₃ : Vm} (h : Kept vm₁ vm₂) (h' : Kept vm₂ vm₃) : Kept vm₁ vm₃ where
  id := h'.id.trans h.id
  backend := h'.backend.trans h.backend
  fallback := h'.fallback.trans h.fallback
  tracing := h'.tracing.trans h.tracing

theorem relief?_of_none (h : vm.fallback = none) : vm.relief? log = none := by
  rw [relief?, h]

theorem relief?_of_error {fallback : Fallback} {e : Plugin.AbiError}
    (h : vm.fallback = some fallback)
    (hmake : fallback.constructor.make (log.nextId fallback.constructor.origin).serial =
      .error e) : vm.relief? log = none := by
  simp only [relief?, h, hmake]

theorem relief?_of_ok {fallback : Fallback} {b : Backend} (h : vm.fallback = some fallback)
    (hmake : fallback.constructor.make (log.nextId fallback.constructor.origin).serial = .ok b) :
    vm.relief? log = some (vm.substitute fallback b log) := by
  simp only [relief?, h, hmake]

theorem answers_of_taken (h : (vm.reply r message observed).status ≠ .rejected) :
    vm.answers r message observed log = [vm.reply r message observed] :=
  if_neg h

theorem answers_of_rejected (h : (vm.reply r message observed).status = .rejected) :
    vm.answers r message observed log =
      vm.reply r message observed :: (vm.relief? log).toList.map (·.reply r message observed) :=
  if_pos h

/-- A call that passes the checks comes to what its answers say, leaves the virtual machine as its
instance has left it, and ends in one of the ways of `Exit`. -/
theorem exec_exit (vm : Vm) (observed : Bool) (log : Log) (h : ctx.message? gas = .ok message) :
    let answers := vm.answers ctx.schedule.revision message observed log
    ∃ log' events,
      vm.exec gas ctx observed log =
        (settled (lastOutcome answers) (answers.flatMap (·.shown observed)),
          vm.afterCall ctx.schedule.revision message observed, log') ∧
      log'.instanceEvents = log.instanceEvents ++ events ∧
      vm.Exit ctx.schedule.revision message observed log events := by
  intro answers
  by_cases hstatus : (vm.reply ctx.schedule.revision message observed).status = .rejected
  · have hanswers : answers = _ := answers_of_rejected hstatus
    have hdeclined := Reply.outcome?_eq_none_iff.mpr hstatus
    cases hfallback : vm.fallback with
    | none =>
      obtain ⟨log', hexec, hevents⟩ := exec_of_fallback_none h hfallback observed log
      refine ⟨log', _, ?_, hevents, .alone⟩
      rw [hexec, hanswers, relief?_of_none hfallback]
      simp [lastOutcome]
    | some fallback =>
      cases hmake : fallback.constructor.make
          (log.nextId fallback.constructor.origin).serial with
      | error e =>
        obtain ⟨log', hexec, hevents⟩ := exec_of_fallback_error log h hstatus hfallback hmake
        refine ⟨log', _, ?_, hevents, .deserted hfallback hmake⟩
        rw [hexec, hanswers, relief?_of_error hfallback hmake]
        simp [lastOutcome, hdeclined]
      | ok b =>
        obtain ⟨log', hexec, hevents⟩ := exec_of_fallback_ok log h hstatus hfallback hmake
        refine ⟨log', _, ?_, hevents, .relieved hfallback hmake⟩
        rw [hexec, hanswers, relief?_of_ok hfallback hmake]
        simp [lastOutcome]
  · have hanswers : answers = _ := answers_of_taken hstatus
    obtain ⟨outcome, log', houtcome, hexec, hevents⟩ := exec_of_taken log h hstatus
    refine ⟨log', _, ?_, hevents, .alone⟩
    rw [hexec, hanswers]
    simp [lastOutcome, houtcome]

/-- The result of a call is a function of its answers. -/
theorem exec_result (vm : Vm) (observed : Bool) (log : Log) (h : ctx.message? gas = .ok message) :
    (vm.exec gas ctx observed log).1 =
      settled (lastOutcome (vm.answers ctx.schedule.revision message observed log))
        ((vm.answers ctx.schedule.revision message observed log).flatMap (·.shown observed)) := by
  obtain ⟨log', events, hexec, -, -⟩ := exec_exit vm observed log h
  rw [hexec]

/-- The events of a call follow how many answers there are. -/
theorem exec_events (vm : Vm) (observed : Bool) (log : Log) (h : ctx.message? gas = .ok message) :
    ∃ events, (vm.exec gas ctx observed log).2.2.instanceEvents = log.instanceEvents ++ events ∧
      vm.Exit ctx.schedule.revision message observed log events := by
  obtain ⟨log', events, hexec, hevents, hexit⟩ := exec_exit vm observed log h
  rw [hexec]
  exact ⟨events, hevents, hexit⟩

/-- A call changes nothing of a virtual machine but the state of its instance. -/
theorem exec_kept (vm : Vm) (gas : Nat) (ctx : CallContext) (observed : Bool) (log : Log) :
    Kept vm (vm.exec gas ctx observed log).2.1 := by
  cases hmessage : ctx.message? gas with
  | error e =>
    rw [exec_of_error hmessage]
    exact ⟨rfl, rfl, rfl, rfl⟩
  | ok message =>
    obtain ⟨log', events, hexec, -, -⟩ := exec_exit vm observed log hmessage
    rw [hexec]
    exact ⟨rfl, rfl, rfl, rfl⟩

end EvmDispatch.Vm
