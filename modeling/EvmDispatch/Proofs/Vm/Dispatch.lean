import EvmDispatch.Backend.Scripted
import EvmDispatch.Proofs.Log
import EvmDispatch.Vm

/-!
# How calls are dispatched

A call that passes the checks is executed by the instance of the virtual machine, and if that one
declines, by one new instance of the fallback. `exec_dispatch` says what this means for the result
and for the events of instances. It is put together from a lemma for each way in which a call can
end. The virtual machine around the fallback has no fallback itself, so that its calls are settled
by `exec_of_fallback_none`, and nothing goes deeper.
-/

namespace EvmDispatch

/-- The state of a backend after options were set in their order. -/
def Backend.configure (b : Backend) (s : b.State) (options : List VmOption) : b.State :=
  options.foldl (fun s o => (b.setOption s o.name o.value).2) s

/-- The events of the options that get as far as an engine. -/
def Backend.configurations (b : Backend) (id : InstanceId) (options : List VmOption) :
    List Event :=
  (options.filter fun o => b.reaches o.name o.value).map fun o => .configured id o.name o.value

theorem Backend.configurations_append (b : Backend) (id : InstanceId)
    (options options' : List VmOption) :
    b.configurations id (options ++ options') =
      b.configurations id options ++ b.configurations id options' := by
  rw [configurations, List.filter_append, List.map_append, configurations, configurations]

/-- What the caller sees of the steps. -/
def Reply.shown (reply : Reply) (observed : Bool) : List Step :=
  if observed then reply.steps else []

/-- The outcome that an answer stands for, unless the call was declined. -/
def Reply.outcome? (reply : Reply) : Option Outcome :=
  Outcome.ofAnswer? reply.status reply.gasLeft reply.output

/-- Only a call that is declined has no outcome. -/
theorem Reply.outcome?_eq_none_iff {reply : Reply} :
    reply.outcome? = none ↔ reply.status = .rejected := by
  unfold outcome? Outcome.ofAnswer?
  cases reply.status <;> simp

namespace Instance

/-- The answer of an instance to a message. -/
def reply (i : Instance) (r : Revision) (message : Message) (observed : Bool) : Reply :=
  (i.backend.execute i.state r message observed).1

/-- The instance after it has answered a message. -/
def afterCall (i : Instance) (r : Revision) (message : Message) (observed : Bool) : Instance :=
  { i with state := (i.backend.execute i.state r message observed).2 }

end Instance

namespace Vm

/-- The answer of the instance to a call. It is observed for the caller or for the trace. -/
def reply (vm : Vm) (r : Revision) (message : Message) (observed : Bool) : Reply :=
  vm.engine.reply r message (vm.tracing || observed)

/-- The event of a call of the instance. -/
def callEvent (vm : Vm) (r : Revision) (message : Message) (observed : Bool) : Event :=
  .executed vm.engine.id r message (vm.tracing || observed)

/-- The virtual machine after its instance has answered a call. -/
def afterCall (vm : Vm) (r : Revision) (message : Message) (observed : Bool) : Vm :=
  { vm with engine := vm.engine.afterCall r message (vm.tracing || observed) }

/-- The virtual machine around a new instance of the fallback, which has received its options. -/
def substitute (vm : Vm) (fallback : Fallback) (b : Backend) (log : Log) : Vm where
  engine :=
    { id := log.nextId fallback.constructor.origin
      backend := b
      state := b.configure b.start fallback.options }
  tracing := vm.tracing

variable {vm : Vm} {gas : Nat} {ctx : CallContext} {message : Message} {observed : Bool} {log : Log}

/-! ## The parts of a call -/

theorem instanceEvents_addAll_optionNotice (log : Log) (engine : String) (o : VmOption)
    (answer : OptionAnswer) :
    (log.addAll (optionNotice engine o answer).toList).instanceEvents = log.instanceEvents := by
  rw [Log.instanceEvents_addAll]
  cases answer <;> exact List.append_nil _

theorem setOption_eq (engine : Instance) (o : VmOption) (log : Log) :
    ∃ log', engine.setOption o.name o.value log =
        ((engine.backend.setOption engine.state o.name o.value).1,
          { engine with state := (engine.backend.setOption engine.state o.name o.value).2 }, log') ∧
      log'.instanceEvents = log.instanceEvents ++ engine.backend.configurations engine.id [o] := by
  refine ⟨_, rfl, ?_⟩
  rw [Backend.configurations]
  by_cases h : engine.backend.reaches o.name o.value = true
  · rw [if_pos h, List.filter_cons, if_pos h]
    exact Log.instanceEvents_add rfl
  · rw [if_neg h, List.filter_cons, if_neg h]
    exact (List.append_nil _).symm

/-- All options are set in their order, whatever is answered to them. -/
theorem applyOptions_eq (engine : Instance) (log : Log) (options : List VmOption) :
    ∃ log', applyOptions engine log options =
        ({ engine with state := engine.backend.configure engine.state options }, log') ∧
      log'.instanceEvents =
        log.instanceEvents ++ engine.backend.configurations engine.id options := by
  induction options generalizing engine log with
  | nil => exact ⟨log, rfl, (List.append_nil _).symm⟩
  | cons o rest ih =>
    obtain ⟨log₁, hset, hevents₁⟩ := setOption_eq engine o log
    rw [applyOptions, hset]
    obtain ⟨log', happly, hevents⟩ := ih
      { engine with state := (engine.backend.setOption engine.state o.name o.value).2 }
      (log₁.addAll (optionNotice engine.name o
        (engine.backend.setOption engine.state o.name o.value).1).toList)
    refine ⟨log', happly, ?_⟩
    rw [hevents, instanceEvents_addAll_optionNotice, hevents₁, List.append_assoc,
      ← Backend.configurations_append]
    rfl

theorem instanceEvents_traceLines (vm : Vm) (lines : List String) (log : Log) :
    (vm.traceLines lines log).instanceEvents = log.instanceEvents := by
  unfold traceLines
  split
  · exact log.instanceEvents_addAll_lines lines
  · rfl

/-- To serve a call is to have the instance execute it once. -/
theorem serve_eq (vm : Vm) (ctx : CallContext) (message : Message) (observed : Bool) (log : Log) :
    ∃ log', vm.serve ctx message observed log =
        (vm.reply ctx.schedule.revision message observed,
          (vm.afterCall ctx.schedule.revision message observed).engine, log') ∧
      log'.instanceEvents =
        log.instanceEvents ++ [vm.callEvent ctx.schedule.revision message observed] := by
  refine ⟨_, rfl, ?_⟩
  rw [instanceEvents_traceLines, instanceEvents_traceLines, Log.instanceEvents_add rfl,
    instanceEvents_traceLines]
  rfl

/-- A call that is refused does not get as far as the instance. -/
theorem exec_of_error {e : PreconditionError} (h : ctx.message? gas = .error e) :
    vm.exec gas ctx observed log = ({ outcome := .error e, gas, steps := [] }, vm, log) := by
  rw [exec, h]

/-- A call that is not declined is answered by the instance alone. -/
theorem exec_of_taken (log : Log) (h : ctx.message? gas = .ok message)
    (hstatus : (vm.reply ctx.schedule.revision message observed).status ≠ .rejected) :
    ∃ outcome log',
      (vm.reply ctx.schedule.revision message observed).outcome? = some outcome ∧
      vm.exec gas ctx observed log =
        (settled outcome ((vm.reply ctx.schedule.revision message observed).shown observed),
          vm.afterCall ctx.schedule.revision message observed, log') ∧
      log'.instanceEvents =
        log.instanceEvents ++ [vm.callEvent ctx.schedule.revision message observed] := by
  obtain ⟨log', hserve, hevents⟩ := serve_eq vm ctx message observed log
  cases houtcome : (vm.reply ctx.schedule.revision message observed).outcome? with
  | none => exact absurd (Reply.outcome?_eq_none_iff.mp houtcome) hstatus
  | some outcome =>
    refine ⟨outcome, log', rfl, ?_, hevents⟩
    rw [Reply.outcome?] at houtcome
    rw [exec, h]
    simp only [hserve, houtcome]
    rfl

/-- A call that is declined is handed on. -/
theorem exec_of_rejected (log : Log) (h : ctx.message? gas = .ok message)
    (hstatus : (vm.reply ctx.schedule.revision message observed).status = .rejected) :
    ∃ log₁,
      log₁.instanceEvents =
        log.instanceEvents ++ [vm.callEvent ctx.schedule.revision message observed] ∧
      ∀ result vm' log₂,
        (vm.afterCall ctx.schedule.revision message observed).fallBack gas ctx observed log₁ =
          (result, vm', log₂) →
        vm.exec gas ctx observed log =
          (result.after ((vm.reply ctx.schedule.revision message observed).shown observed),
            vm', log₂) := by
  obtain ⟨log₁, hserve, hevents⟩ := serve_eq vm ctx message observed log
  refine ⟨log₁, hevents, fun result vm' log₂ hfallBack => ?_⟩
  have houtcome := Reply.outcome?_eq_none_iff.mpr hstatus
  rw [Reply.outcome?] at houtcome
  rw [afterCall] at hserve hfallBack
  rw [exec, h]
  simp only [hserve, houtcome, hfallBack]
  rfl

/-! ## Calls without a fallback -/

theorem fallBack_of_none (h : vm.fallback = none) :
    vm.fallBack gas ctx observed log = (settled declined [], vm, log) := by
  rw [fallBack]
  split
  · rfl
  · rename_i fallback hfallback
    rw [h] at hfallback
    cases hfallback

theorem settled_after (outcome : Outcome) (before steps : List Step) :
    (settled outcome steps).after before = settled outcome (before ++ steps) := rfl

/-- A virtual machine without a fallback settles every call by one execution. -/
theorem exec_of_fallback_none (h : ctx.message? gas = .ok message) (hfallback : vm.fallback = none)
    (observed : Bool) (log : Log) :
    ∃ log',
      vm.exec gas ctx observed log =
        (settled ((vm.reply ctx.schedule.revision message observed).outcome?.getD declined)
            ((vm.reply ctx.schedule.revision message observed).shown observed),
          vm.afterCall ctx.schedule.revision message observed, log') ∧
      log'.instanceEvents =
        log.instanceEvents ++ [vm.callEvent ctx.schedule.revision message observed] := by
  by_cases hstatus : (vm.reply ctx.schedule.revision message observed).status = .rejected
  · obtain ⟨log', hevents, hexec⟩ := exec_of_rejected log h hstatus
    refine ⟨log', ?_, hevents⟩
    rw [hexec _ _ _ (fallBack_of_none hfallback), Reply.outcome?_eq_none_iff.mpr hstatus,
      settled_after, List.append_nil, Option.getD_none]
  · obtain ⟨outcome, log', houtcome, hexec, hevents⟩ := exec_of_taken log h hstatus
    refine ⟨log', ?_, hevents⟩
    rw [hexec, houtcome, Option.getD_some]

/-! ## Calls with a fallback -/

variable {fallback : Fallback}

theorem nextId_add_notice (log : Log) (level : Level) (text : String) (origin : Origin) :
    (log.add (.notice level text)).nextId origin = log.nextId origin :=
  Log.nextId_congr (by rw [Log.instanceEvents_add_notice, List.append_nil]) rfl

/-- If the constructor of the fallback fails, nobody takes the call. -/
theorem fallBack_of_error {e : Plugin.AbiError} (hfallback : vm.fallback = some fallback)
    (hmake : fallback.constructor.make (log.nextId fallback.constructor.origin).serial = .error e) :
    ∃ log', vm.fallBack gas ctx observed log = (settled declined [], vm, log') ∧
      log'.instanceEvents =
        log.instanceEvents ++ [.refused (log.nextId fallback.constructor.origin) e] := by
  rw [fallBack]
  split
  · rename_i hnone
    rw [hfallback] at hnone
    cases hnone
  · rename_i given hgiven
    obtain rfl := Option.some.inj (hgiven.symm.trans hfallback)
    simp only [Constructor.instantiate, nextId_add_notice, hmake]
    refine ⟨_, rfl, ?_⟩
    rw [Log.instanceEvents_add_notice, Log.instanceEvents_add rfl, Log.instanceEvents_add_notice]

/-- If the constructor of the fallback makes an instance, that one receives the options, executes
the call and is released. -/
theorem fallBack_of_ok {b : Backend} (h : ctx.message? gas = .ok message)
    (hfallback : vm.fallback = some fallback)
    (hmake : fallback.constructor.make (log.nextId fallback.constructor.origin).serial = .ok b) :
    let substitute := vm.substitute fallback b log
    let reply := substitute.reply ctx.schedule.revision message observed
    ∃ log', vm.fallBack gas ctx observed log =
        (settled (reply.outcome?.getD declined) (reply.shown observed), vm, log') ∧
      log'.instanceEvents = log.instanceEvents ++ (.created substitute.engine.id ::
        (b.configurations substitute.engine.id fallback.options ++
          [substitute.callEvent ctx.schedule.revision message observed,
            .released substitute.engine.id])) := by
  intro substitute reply
  rw [fallBack]
  split
  · rename_i hnone
    rw [hfallback] at hnone
    cases hnone
  · rename_i given hgiven
    obtain rfl := Option.some.inj (hgiven.symm.trans hfallback)
    simp only [Constructor.instantiate, nextId_add_notice, hmake]
    obtain ⟨log₁, happly, hevents₁⟩ := applyOptions_eq
      { id := log.nextId given.constructor.origin, backend := b, state := b.start } _ _
    rw [happly]
    -- the virtual machine around the new instance has no fallback, so this is its last execution
    obtain ⟨log₂, hexec, hevents₂⟩ := exec_of_fallback_none h
      (show substitute.fallback = none from rfl) observed log₁
    simp only [substitute, Vm.substitute] at hexec
    simp only [hexec]
    refine ⟨_, rfl, ?_⟩
    rw [release, Instance.release, Log.instanceEvents_add rfl, hevents₂, hevents₁,
      Log.instanceEvents_add rfl, Log.instanceEvents_add_notice]
    simp [substitute, Vm.substitute, afterCall, Instance.afterCall]

theorem exec_of_fallback_error {e : Plugin.AbiError} (log : Log)
    (h : ctx.message? gas = .ok message)
    (hstatus : (vm.reply ctx.schedule.revision message observed).status = .rejected)
    (hfallback : vm.fallback = some fallback)
    (hmake : fallback.constructor.make (log.nextId fallback.constructor.origin).serial = .error e) :
    ∃ log',
      vm.exec gas ctx observed log =
        (settled declined ((vm.reply ctx.schedule.revision message observed).shown observed),
          vm.afterCall ctx.schedule.revision message observed, log') ∧
      log'.instanceEvents = log.instanceEvents ++
        [vm.callEvent ctx.schedule.revision message observed,
          .refused (log.nextId fallback.constructor.origin) e] := by
  obtain ⟨log₁, hevents₁, hexec⟩ := exec_of_rejected log h hstatus
  have hid : log₁.nextId fallback.constructor.origin = log.nextId fallback.constructor.origin :=
    Log.nextId_congr hevents₁ rfl
  have hfallback : (vm.afterCall ctx.schedule.revision message observed).fallback =
      some fallback := hfallback
  rw [← hid] at hmake ⊢
  obtain ⟨log', hfallBack, hevents⟩ := fallBack_of_error hfallback hmake
  refine ⟨log', ?_, ?_⟩
  · rw [hexec _ _ _ hfallBack, settled_after, List.append_nil]
  · rw [hevents, hevents₁, List.append_assoc, List.singleton_append]

/-- A call that is declined is answered by a new instance of the fallback. -/
theorem exec_of_fallback_ok {b : Backend} (log : Log) (h : ctx.message? gas = .ok message)
    (hstatus : (vm.reply ctx.schedule.revision message observed).status = .rejected)
    (hfallback : vm.fallback = some fallback)
    (hmake : fallback.constructor.make (log.nextId fallback.constructor.origin).serial = .ok b) :
    let reply := vm.reply ctx.schedule.revision message observed
    let substitute := vm.substitute fallback b log
    let second := substitute.reply ctx.schedule.revision message observed
    ∃ log',
      vm.exec gas ctx observed log =
        (settled (second.outcome?.getD declined) (reply.shown observed ++ second.shown observed),
          vm.afterCall ctx.schedule.revision message observed, log') ∧
      log'.instanceEvents = log.instanceEvents ++
        (vm.callEvent ctx.schedule.revision message observed :: .created substitute.engine.id ::
          (b.configurations substitute.engine.id fallback.options ++
            [substitute.callEvent ctx.schedule.revision message observed,
              .released substitute.engine.id])) := by
  intro reply substitute second
  obtain ⟨log₁, hevents₁, hexec⟩ := exec_of_rejected log h hstatus
  have hid : log₁.nextId fallback.constructor.origin = log.nextId fallback.constructor.origin :=
    Log.nextId_congr hevents₁ rfl
  have hsubstitute : (vm.afterCall ctx.schedule.revision message observed).substitute fallback b
      log₁ = substitute := by
    rw [Vm.substitute, hid]
    rfl
  have hfallback : (vm.afterCall ctx.schedule.revision message observed).fallback =
      some fallback := hfallback
  rw [← hid] at hmake
  obtain ⟨log', hfallBack, hevents⟩ := fallBack_of_ok h hfallback hmake
  rw [hsubstitute] at hfallBack hevents
  refine ⟨log', ?_, ?_⟩
  · rw [hexec _ _ _ hfallBack, settled_after]
  · rw [hevents, hevents₁, List.append_assoc, List.singleton_append]

theorem exec_eq_settled (vm : Vm) (observed : Bool) (log : Log)
    (h : ctx.message? gas = .ok message) :
    ∃ outcome steps, (vm.exec gas ctx observed log).1 = settled outcome steps := by
  by_cases hstatus : (vm.reply ctx.schedule.revision message observed).status = .rejected
  · cases hfallback : vm.fallback with
    | none =>
      obtain ⟨log', hexec, -⟩ := exec_of_fallback_none h hfallback observed log
      exact ⟨_, _, congrArg Prod.fst hexec⟩
    | some fallback =>
      cases hmake : fallback.constructor.make
          (log.nextId fallback.constructor.origin).serial with
      | error e =>
        obtain ⟨log', hexec, -⟩ := exec_of_fallback_error log h hstatus hfallback hmake
        exact ⟨_, _, congrArg Prod.fst hexec⟩
      | ok b =>
        obtain ⟨log', hexec, -⟩ := exec_of_fallback_ok log h hstatus hfallback hmake
        exact ⟨_, _, congrArg Prod.fst hexec⟩
  · obtain ⟨outcome, log', -, hexec, -⟩ := exec_of_taken log h hstatus
    exact ⟨_, _, congrArg Prod.fst hexec⟩

/-! ## The law -/

/-- How a call that passes the checks is dispatched. The instance executes it once. Unless it
declines, its answer decides. If it declines and the fallback can be made, one new instance gets the
options in their order, executes the same message under the same revision once, and decides by its
answer. Whoever declines last leaves an internal error. The caller always keeps the gas that the
outcome leaves. -/
theorem exec_dispatch (vm : Vm) (gas : Nat) (ctx : CallContext) (observed : Bool) (log : Log)
    (h : ctx.message? gas = .ok message) :
    let r := ctx.schedule.revision
    let reply := vm.reply r message observed
    let after := vm.afterCall r message observed
    let rejected : Outcome := .failure (.internalError (-2))
    (reply.status ≠ .rejected →
      ∃ outcome log', reply.outcome? = some outcome ∧
        vm.exec gas ctx observed log = (settled outcome (reply.shown observed), after, log') ∧
        log'.instanceEvents = log.instanceEvents ++ [vm.callEvent r message observed]) ∧
    (reply.status = .rejected → vm.fallback = none →
      ∃ log',
        vm.exec gas ctx observed log = (settled rejected (reply.shown observed), after, log') ∧
        log'.instanceEvents = log.instanceEvents ++ [vm.callEvent r message observed]) ∧
    (∀ fallback e, reply.status = .rejected → vm.fallback = some fallback →
      let id := log.nextId fallback.constructor.origin
      fallback.constructor.make id.serial = .error e →
      ∃ log',
        vm.exec gas ctx observed log = (settled rejected (reply.shown observed), after, log') ∧
        log'.instanceEvents =
          log.instanceEvents ++ [vm.callEvent r message observed, .refused id e]) ∧
    (∀ fallback b, reply.status = .rejected → vm.fallback = some fallback →
      let id := log.nextId fallback.constructor.origin
      fallback.constructor.make id.serial = .ok b →
      let substitute := vm.substitute fallback b log
      let second := substitute.reply r message observed
      ∃ log',
        vm.exec gas ctx observed log =
          (settled (second.outcome?.getD rejected) (reply.shown observed ++ second.shown observed),
            after, log') ∧
        log'.instanceEvents = log.instanceEvents ++
          ([vm.callEvent r message observed, .created id] ++ b.configurations id fallback.options ++
            [substitute.callEvent r message observed, .released id])) ∧
    ∃ outcome, (vm.exec gas ctx observed log).1.outcome = .ok outcome ∧
      (vm.exec gas ctx observed log).1.gas = outcome.gasLeft ∧
      ∀ cause, outcome = .failure cause → (vm.exec gas ctx observed log).1.gas = 0 := by
  intro r reply after rejected
  refine ⟨exec_of_taken log h, ?_, ?_, ?_, ?_⟩
  · intro hstatus hfallback
    obtain ⟨log', hexec, hevents⟩ := exec_of_fallback_none h hfallback observed log
    rw [Reply.outcome?_eq_none_iff.mpr hstatus] at hexec
    exact ⟨log', hexec, hevents⟩
  · intro fallback e hstatus hfallback id hmake
    obtain ⟨log', hexec, hevents⟩ := exec_of_fallback_error log h hstatus hfallback hmake
    exact ⟨log', hexec, hevents⟩
  · intro fallback b hstatus hfallback id hmake
    obtain ⟨log', hexec, hevents⟩ := exec_of_fallback_ok log h hstatus hfallback hmake
    exact ⟨log', hexec, hevents⟩
  · obtain ⟨outcome, steps, hresult⟩ := exec_eq_settled vm observed log h
    rw [hresult]
    refine ⟨outcome, rfl, rfl, ?_⟩
    rintro cause rfl
    rfl

/-- A call that is declined, and that a fallback with one option takes. -/
theorem exec_dispatch_declined :
    let vm : Vm :=
      { engine :=
          { id := ⟨.supplied 0, 0⟩, backend := ({ status := .rejected } : Script).backend
            state := () }
        fallback := some
          { name := "second", constructor := .ofBackend (.supplied 1) ({} : Script).backend
            options := [⟨"limit", "7"⟩] } }
    ∃ log', vm.exec 5 {} false {} = (settled (.success [] 5) [], vm, log') ∧
      log'.instanceEvents =
        [.executed ⟨.supplied 0, 0⟩ .frontier { gas := 5 } false, .created ⟨.supplied 1, 0⟩,
          .configured ⟨.supplied 1, 0⟩ "limit" "7",
          .executed ⟨.supplied 1, 0⟩ .frontier { gas := 5 } false,
          .released ⟨.supplied 1, 0⟩] := by
  intro vm
  exact (exec_dispatch vm 5 {} false {} rfl).2.2.2.1 _ _ rfl rfl rfl

end Vm

end EvmDispatch
