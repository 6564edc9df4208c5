import EvmDispatch.Factory
import EvmDispatch.Proofs.Vm.Dispatch

/-!
# How virtual machines are made

A factory calls one constructor at most. If the constructor makes an instance, this one receives the
options of the factory, and the virtual machine around it falls back on the reference interpreter of
the factory, for which the same options hold.
-/

namespace EvmDispatch

/-- What setting up an instance comes to. -/
theorem Vm.start_eq (engine : Instance) (options : List VmOption) (log : Log) :
    ∃ log', Vm.start engine options log =
        ({ engine :=
            { engine with state := engine.backend.configure engine.state options } }, log') ∧
      log'.instanceEvents =
        log.instanceEvents ++ engine.backend.configurations engine.id options := by
  obtain ⟨log', happly, hevents⟩ := applyOptions_eq engine log options
  refine ⟨log', ?_, hevents⟩
  rw [Vm.start, happly]

namespace Factory

/-- What a factory answers to the wish for a virtual machine, and the events of instances. -/
inductive Creation (f : Factory) (name : Option String) (log : Log) :
    Except FactoryError Vm → List Event → Prop where
  | unknown (missing : f.registry.get? (name.getD f.default) = none) :
    Creation f name log (.error (.unknownBackend (name.getD f.default) f.registry.names)) []
  | refused {e : RegistryEntry} {cause : Plugin.AbiError}
    (entry : f.registry.get? (name.getD f.default) = some e)
    (make : e.constructor.make (log.nextId e.constructor.origin).serial = .error cause) :
    Creation f name log (.error (.instantiate (name.getD f.default) cause))
      [.refused (log.nextId e.constructor.origin) cause]
  | made {e : RegistryEntry} {b : Backend}
    (entry : f.registry.get? (name.getD f.default) = some e)
    (make : e.constructor.make (log.nextId e.constructor.origin).serial = .ok b) :
    Creation f name log
      (.ok
        { engine :=
            { id := log.nextId e.constructor.origin, backend := b
              state := b.configure b.start f.options }
          fallback := f.fallback?
          tracing := f.trace })
      (.created (log.nextId e.constructor.origin) ::
        b.configurations (log.nextId e.constructor.origin) f.options)

/-- A factory makes a virtual machine, or fails to, in one of the ways of `Creation`. -/
theorem create_creation (f : Factory) (name : Option String) (log : Log) :
    ∃ answer log' events, f.create name log = (answer, log') ∧
      log'.instanceEvents = log.instanceEvents ++ events ∧ f.Creation name log answer events := by
  simp only [create]
  cases hentry : f.registry.get? (name.getD f.default) with
  | none => exact ⟨_, _, [], rfl, (List.append_nil _).symm, .unknown hentry⟩
  | some e =>
    simp only [Constructor.instantiate]
    cases hmake : e.constructor.make (log.nextId e.constructor.origin).serial with
    | error cause => exact ⟨_, _, _, rfl, Log.instanceEvents_add rfl, .refused hentry hmake⟩
    | ok b =>
      obtain ⟨log', hstart, hevents⟩ := Vm.start_eq
        { id := log.nextId e.constructor.origin, backend := b, state := b.start } f.options
        (log.add (.created (log.nextId e.constructor.origin)))
      simp only [hstart]
      refine ⟨_, log', _, rfl, ?_, .made hentry hmake⟩
      rw [hevents, Log.instanceEvents_add rfl, List.append_assoc]
      rfl

variable {f : Factory} {name : Option String} {log : Log}

/-- Whatever a virtual machine was made for, it falls back on the reference interpreter, and traces
if the factory says so. -/
theorem Creation.of_ok {vm : Vm} {events : List Event} (h : f.Creation name log (.ok vm) events) :
    vm.fallback = f.fallback? ∧ vm.tracing = f.trace := by
  cases h with
  | made entry make => exact ⟨rfl, rfl⟩

theorem of_create_eq_ok {log' : Log} {vm : Vm} (h : f.create name log = (.ok vm, log')) :
    vm.fallback = f.fallback? ∧ vm.tracing = f.trace := by
  obtain ⟨answer, log₁, events, hcreate, -, hcreation⟩ := create_creation f name log
  obtain ⟨rfl, rfl⟩ := Prod.mk.inj (h.symm.trans hcreate)
  exact hcreation.of_ok

end Factory

end EvmDispatch
