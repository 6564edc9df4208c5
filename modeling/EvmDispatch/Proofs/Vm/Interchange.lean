import EvmDispatch.Proofs.Backend.FastPath
import EvmDispatch.Proofs.Host.Configuration
import EvmDispatch.Proofs.Vm.Dispatch

/-!
# The fast backend and the reference interpreter

Under one configuration a virtual machine of the fast backend and one of the reference interpreter
are interchangeable. Both instances receive the same options and so have the same settings, which no
call changes. Code without jumps runs alike under every table of jump destinations; other code the
fast backend hands on to a new interpreter, which has the same settings again. So both machines come
to `referenceResult`, whatever calls they have served before.
-/

namespace EvmDispatch

/-! ## Virtual machines under a configuration -/

theorem Factory.create_of_ok (f : Factory) (log : Log) {name : String} {e : RegistryEntry}
    {b : Backend} (hentry : f.registry.get? name = some e)
    (hmake : e.constructor.make (log.nextId e.constructor.origin).serial = .ok b) :
    ∃ log', f.create (some name) log =
      (.ok
        { engine :=
            { id := log.nextId e.constructor.origin, backend := b
              state := b.configure b.start f.options }
          fallback := f.fallback?
          tracing := f.trace }, log') := by
  unfold create
  simp only [Option.getD_some, hentry, Constructor.instantiate, hmake, Vm.start]
  obtain ⟨log', happly, -⟩ := Vm.applyOptions_eq
    { id := log.nextId e.constructor.origin, backend := b, state := b.start }
    (log.add (.created (log.nextId e.constructor.origin))) f.options
  rw [happly]
  exact ⟨log', rfl⟩

/-! ## Calls under settings -/

/-- An engine with the options that an instance receives. -/
def Engine.configured (options : List VmOption) : Engine :=
  options.foldl (fun e o => (e.set o.name o.value).2) {}

namespace Vm

/-- What declined calls fall back on under a configuration of the backends of this library. -/
def builtinFallback (options : List VmOption) : Fallback where
  name := defaultBackend
  constructor := .builtin Interpreter.backend
  options := options

/-- A virtual machine around an engine of the reference interpreter. -/
def ofInterpreter (id : InstanceId) (e : Engine) (options : List VmOption) (tracing : Bool) :
    Vm where
  engine := { id, backend := Interpreter.backend, state := e }
  fallback := some (builtinFallback options)
  tracing := tracing

/-- A virtual machine around an engine of the fast backend. -/
def ofFastPath (id : InstanceId) (e : Engine) (options : List VmOption) (tracing : Bool) :
    Vm where
  engine := { id, backend := FastPath.backend, state := e }
  fallback := some (builtinFallback options)
  tracing := tracing

/-- What the reference interpreter answers under some settings. -/
def referenceReply (settings : Settings) (tracing : Bool) (r : Revision) (message : Message)
    (observed : Bool) : Reply :=
  (Frame.ofMessage r message (Code.jumpTable message.code)).run settings message.gas
    (tracing || observed)

/-- What a call comes to that the reference interpreter executes. -/
def referenceResult (settings : Settings) (tracing : Bool) (gas : Nat) (ctx : CallContext)
    (observed : Bool) : CallResult :=
  match ctx.message? gas with
  | .error e => { outcome := .error e, gas, steps := [] }
  | .ok message =>
    let reply := referenceReply settings tracing ctx.schedule.revision message observed
    settled (reply.outcome?.getD declined) (reply.shown observed)

variable {settings : Settings} {tracing observed : Bool} {gas : Nat} {ctx : CallContext}
  {message : Message} {vm : Vm}

theorem referenceResult_of_ok (h : ctx.message? gas = .ok message) :
    referenceResult settings tracing gas ctx observed =
      let reply := referenceReply settings tracing ctx.schedule.revision message observed
      settled (reply.outcome?.getD declined) (reply.shown observed) := by
  rw [referenceResult, h]

/-- A virtual machine whose instance answers as the reference interpreter comes to its result. -/
theorem exec_of_reference (log : Log) (h : ctx.message? gas = .ok message)
    (hreply : vm.reply ctx.schedule.revision message observed =
      referenceReply settings tracing ctx.schedule.revision message observed) :
    ∃ log', vm.exec gas ctx observed log =
      (referenceResult settings tracing gas ctx observed,
        vm.afterCall ctx.schedule.revision message observed, log') := by
  have hstatus : (vm.reply ctx.schedule.revision message observed).status ≠ .rejected := by
    rw [hreply]
    exact Frame.run_status_ne_rejected _ _ _ _
  obtain ⟨outcome, log', houtcome, hexec, -⟩ := exec_of_taken log h hstatus
  refine ⟨log', ?_⟩
  rw [hexec, referenceResult_of_ok h, ← hreply]
  simp only [houtcome, Option.getD_some]

/-- A virtual machine of one of the two backends whose instance has some settings. If it hands a
call on, the new instance will have them too. -/
inductive Serves (settings : Settings) (tracing : Bool) : Vm → Prop where
  | interpreter {id : InstanceId} {e : Engine} {options : List VmOption}
    (same : e.settings = settings) :
    Serves settings tracing (ofInterpreter id e options tracing)
  | fastPath {id : InstanceId} {e : Engine} {options : List VmOption}
    (same : e.settings = settings) (handed : (Engine.configured options).settings = settings) :
    Serves settings tracing (ofFastPath id e options tracing)

/-- Both backends come to the same, and keep their settings. -/
theorem Serves.exec (h : Serves settings tracing vm) (gas : Nat) (ctx : CallContext)
    (observed : Bool) (log : Log) :
    ∃ vm' log', Serves settings tracing vm' ∧
      vm.exec gas ctx observed log =
        (referenceResult settings tracing gas ctx observed, vm', log') := by
  cases hmessage : ctx.message? gas with
  | error error =>
    refine ⟨vm, log, h, ?_⟩
    rw [exec_of_error hmessage, referenceResult, hmessage]
  | ok message =>
    cases h with
    | @interpreter id e options same =>
      have hreply : (ofInterpreter id e options tracing).reply ctx.schedule.revision message
          observed = referenceReply settings tracing ctx.schedule.revision message observed := by
        rw [← same]
        rfl
      obtain ⟨log', hexec⟩ := exec_of_reference log hmessage hreply
      have hserves : Serves settings tracing ((ofInterpreter id e options tracing).afterCall
          ctx.schedule.revision message observed) := .interpreter same
      exact ⟨_, log', hserves, hexec⟩
    | @fastPath id e options same handed =>
      have hreply : (ofFastPath id e options tracing).reply ctx.schedule.revision message observed =
          (FastPath.execute e ctx.schedule.revision message (tracing || observed)).1 := rfl
      have hserves : Serves settings tracing ((ofFastPath id e options tracing).afterCall
          ctx.schedule.revision message observed) :=
        .fastPath ((FastPath.settings_execute _ _ _ _).trans same) handed
      cases straight : Code.isStraightLine message.code with
      | true =>
        rw [FastPath.execute_of_straight straight] at hreply
        have hreply : (ofFastPath id e options tracing).reply ctx.schedule.revision message
            observed = referenceReply settings tracing ctx.schedule.revision message observed := by
          rw [hreply, ← same]
          rfl
        obtain ⟨log', hexec⟩ := exec_of_reference log hmessage hreply
        exact ⟨_, log', hserves, hexec⟩
      | false =>
        rw [FastPath.execute_of_not_straight straight] at hreply
        have hstatus : ((ofFastPath id e options tracing).reply ctx.schedule.revision message
            observed).status = .rejected := congrArg Reply.status hreply
        have hfallback : (ofFastPath id e options tracing).fallback =
            some (builtinFallback options) := rfl
        -- the new interpreter has received the same options
        obtain ⟨log', hexec, -⟩ := exec_of_fallback_ok log hmessage hstatus hfallback rfl
        refine ⟨_, log', hserves, ?_⟩
        rw [hexec, hreply, referenceResult_of_ok hmessage, ← handed]
        cases observed <;> rfl

/-! ## Whole histories -/

/-- A call as a virtual machine gets it. -/
structure Call where
  gas : Nat
  context : CallContext
  observed : Bool

/-- The virtual machine after a number of calls, and the log. -/
def afterCalls (vm : Vm) (log : Log) : List Call → Vm × Log
  | [] => (vm, log)
  | call :: rest =>
    let (_, vm, log) := vm.exec call.gas call.context call.observed log
    vm.afterCalls log rest

/-- Calls do not change the settings, however many there have been. -/
theorem Serves.afterCalls (h : Serves settings tracing vm) (log : Log) (calls : List Call) :
    Serves settings tracing (vm.afterCalls log calls).1 := by
  induction calls generalizing vm log with
  | nil => exact h
  | cons call rest ih =>
    obtain ⟨vm', log', h', hexec⟩ := h.exec call.gas call.context call.observed log
    rw [Vm.afterCalls, hexec]
    exact ih h' log'

end Vm

namespace Factory

variable {f : Factory}

/-- What is registered as the reference interpreter is the one of this library. -/
def HasReference (f : Factory) : Prop :=
  ∃ e, f.registry.get? defaultBackend = some e ∧ e.constructor = .builtin Interpreter.backend

theorem hasReference_of_builtins (h : f.registry = .builtins) : f.HasReference := by
  refine ⟨{ kind := .builtin, constructor := .builtin Interpreter.backend }, ?_, rfl⟩
  rw [h, defaultBackend, Registry.get?_builtins_interpreter]

theorem HasReference.fallback?_eq (h : f.HasReference) :
    f.fallback? = some (Vm.builtinFallback f.options) := by
  obtain ⟨e, hentry, hconstructor⟩ := h
  rw [fallback?, hentry, Option.map_some, hconstructor]
  rfl

theorem HasReference.create (h : f.HasReference) (log : Log) :
    ∃ vm log', f.create (some defaultBackend) log = (.ok vm, log') ∧
      vm.Serves (Engine.configured f.options).settings f.trace := by
  have hfallback := h.fallback?_eq
  obtain ⟨e, hentry, hconstructor⟩ := h
  have hmake : ∀ n, e.constructor.make n = .ok Interpreter.backend := by
    rw [hconstructor]
    exact fun _ => rfl
  obtain ⟨log', hcreate⟩ := create_of_ok f log hentry (hmake _)
  rw [hfallback] at hcreate
  exact ⟨_, log', hcreate, .interpreter rfl⟩

theorem create_interpreter (h : f.registry = .builtins) (log : Log) :
    ∃ vm log', f.create (some Interpreter.name) log = (.ok vm, log') ∧
      vm.Serves (Engine.configured f.options).settings f.trace :=
  (hasReference_of_builtins h).create log

theorem create_fastPath (h : f.registry = .builtins) (log : Log) :
    ∃ vm log', f.create (some FastPath.name) log = (.ok vm, log') ∧
      vm.Serves (Engine.configured f.options).settings f.trace := by
  have hentry := Registry.get?_builtins_fastPath
  rw [← h] at hentry
  obtain ⟨log', hcreate⟩ := create_of_ok f log hentry rfl
  rw [(hasReference_of_builtins h).fallback?_eq] at hcreate
  exact ⟨_, log', hcreate, .fastPath rfl rfl⟩

/-- Whatever operations have built up a configuration of the backends of this library, its factory
makes a virtual machine of the fast backend and one of the reference interpreter, and these are
interchangeable: after any calls before, the same call has the same result on both, which is the
outcome or the error, the gas that is left and the steps for the caller. -/
theorem fastPath_interchangeable (adjustments : List HostConfig.Adjustment) (log₁ log₂ : Log) :
    let factory := (adjustments.foldl HostConfig.adjust {}).finalize
    ∃ fast reference log₁' log₂',
      factory.create (some FastPath.name) log₁ = (.ok fast, log₁') ∧
      factory.create (some Interpreter.name) log₂ = (.ok reference, log₂') ∧
      ∀ (before₁ before₂ : List Vm.Call) (start₁ start₂ now₁ now₂ : Log) (gas : Nat)
        (ctx : CallContext) (observed : Bool),
        ((fast.afterCalls start₁ before₁).1.exec gas ctx observed now₁).1 =
          ((reference.afterCalls start₂ before₂).1.exec gas ctx observed now₂).1 := by
  intro factory
  have hregistry : factory.registry = .builtins := HostConfig.registry_foldl_adjust {} adjustments
  obtain ⟨fast, log₁', hfast, hserves₁⟩ := create_fastPath hregistry log₁
  obtain ⟨reference, log₂', hreference, hserves₂⟩ := create_interpreter hregistry log₂
  refine ⟨fast, reference, log₁', log₂', hfast, hreference, ?_⟩
  intro before₁ before₂ start₁ start₂ now₁ now₂ gas ctx observed
  obtain ⟨_, _, -, hexec₁⟩ := (hserves₁.afterCalls start₁ before₁).exec gas ctx observed now₁
  obtain ⟨_, _, -, hexec₂⟩ := (hserves₂.afterCalls start₂ before₂).exec gas ctx observed now₂
  rw [hexec₁, hexec₂]

end Factory

end EvmDispatch
