import EvmDispatch.Proofs.Session.Lifecycle
import EvmDispatch.Proofs.Vm.Answers
import EvmDispatch.Proofs.Vm.Creation
import EvmDispatch.Session
import Mathlib.Data.List.Induction

/-!
# The life of an instance in a session

Whatever an operation does to the instances of a session, it does by episodes
(`perform_episodes`), and it calls constructors only for the purposes that `Commissions` lists. So
every instance there is has been made by one operation for one purpose, and from then on fares as
that purpose says (`performAll_lifecycle`).
-/

namespace EvmDispatch

open Relation Fleet

/-- The constructors that may be adopted from a library at a path. -/
def Library.Offers (library : Library) (path : String) (c : Constructor) : Prop :=
  ∃ symbol exported, library.findConstructor? (candidateSymbols path) = some (symbol, exported) ∧
    c = .ofPlugin exported

/-- The constructors that may be adopted from the library that is found at a path. -/
def Surroundings.Offers (surroundings : Surroundings) (path : String) (c : Constructor) : Prop :=
  ∃ library, surroundings.openLibrary path = .ok library ∧ library.Offers path c

/-- The constructor of the backend that a factory makes virtual machines of for a name, or for the
default. -/
def Factory.Employs (f : Factory) (name : Option String) (c : Constructor) : Prop :=
  ∃ e, f.registry.get? (name.getD f.default) = some e ∧ c = e.constructor

namespace Session

/-- What an operation may call constructors for. -/
inductive Commissions (s : Session) (surroundings : Surroundings) :
    Operation → Constructor → Purpose → Prop where
  | registerLibrary {path : String} {library : Library} {c : Constructor}
    (offers : library.Offers path c) :
    Commissions s surroundings (.registerLibrary path library) c .probe
  | load {path : String} {c : Constructor} (offers : surroundings.Offers path c) :
    Commissions s surroundings (.load path) c .probe
  | applyFile {path library : String} {file : ConfigFile} {c : Constructor}
    (read : ConfigFile.read surroundings path = .ok file)
    (named : library ∈ file.load.map file.resolve) (offers : surroundings.Offers library c) :
    Commissions s surroundings (.applyFile path) c .probe
  | configureFile {request : Command.HostRequest} {path library : String} {file : ConfigFile}
    {c : Constructor} (given : request.config = some path)
    (read : ConfigFile.read surroundings path = .ok file)
    (named : library ∈ file.load.map file.resolve) (offers : surroundings.Offers library c) :
    Commissions s surroundings (.configure request) c .probe
  | configure {request : Command.HostRequest} {library : String} {c : Constructor}
    (named : library ∈ request.loads) (offers : surroundings.Offers library c) :
    Commissions s surroundings (.configure request) c .probe
  | create {name : String} {backend : Option String} {traced : Bool} {c : Constructor}
    (employs : s.currentFactory.Employs backend c) :
    Commissions s surroundings (.create name backend traced) c
      (.serve s.currentFactory.options s.currentFactory.fallback?)
  | assemble {name : String} {c : Constructor} {options : List VmOption}
    {fallback : Option Fallback} {traced : Bool} :
    Commissions s surroundings (.assemble name c options fallback traced) c
      (.serve options fallback)
  | execute {name : String} {gas : Nat} {context : CallContext} {observed : Bool} {vm : Vm}
    {fallback : Fallback} (called : s.vm? name = some vm) (given : vm.fallback = some fallback) :
    Commissions s surroundings (.execute name gas context observed) fallback.constructor
      (.relieve fallback.options)
  | run {request : Command.RunRequest} {c : Constructor}
    (employs : s.currentFactory.Employs request.vm c) :
    Commissions s surroundings (.run request) c
      (.serve s.currentFactory.options s.currentFactory.fallback?)
  | runRelief {request : Command.RunRequest} {fallback : Fallback}
    (given : s.currentFactory.fallback? = some fallback) :
    Commissions s surroundings (.run request) fallback.constructor (.relieve fallback.options)

/-- The instances of a session. -/
def fleet (s : Session) : Fleet where
  events := s.log.instanceEvents
  vms := (s.vms.map (·.2) : List Vm)

/-- No name stands for two virtual machines. -/
def Named (s : Session) : Prop := (s.vms.map (·.1)).Nodup

end Session

variable {K : Constructor → Purpose → Prop}

/-! ## Calls -/

theorem Log.nextId_eq (log : Log) (origin : Origin) :
    log.nextId origin = nextIdAfter origin log.instanceEvents := by
  rw [nextId, attempts_eq, nextIdAfter]

/-- A call gives no number to an instance. -/
theorem Log.nextIdAfter_callEvent (vm : Vm) (r : Revision) (message : Message) (observed : Bool)
    (origin : Origin) (events : List Event) :
    nextIdAfter origin (events ++ [vm.callEvent r message observed]) =
      nextIdAfter origin events := by
  rw [nextIdAfter, attemptsIn_append, nextIdAfter]
  rfl

/-- A call is one episode of the instance, and perhaps one of an instance of the fallback. -/
theorem Vm.exec_episodes (vm : Vm) (gas : Nat) (ctx : CallContext) (observed : Bool) (log : Log)
    (vms : Multiset Vm)
    (asked : ∀ fallback, vm.fallback = some fallback →
      K fallback.constructor (.relieve fallback.options)) :
    ReflTransGen (Episode K) ⟨log.instanceEvents, vm ::ₘ vms⟩
      ⟨(vm.exec gas ctx observed log).2.2.instanceEvents,
        (vm.exec gas ctx observed log).2.1 ::ₘ vms⟩ := by
  cases hmessage : ctx.message? gas with
  | error e =>
    rw [exec_of_error hmessage]
  | ok message =>
    obtain ⟨log', events, hexec, hevents, hexit⟩ := exec_exit vm observed log hmessage
    rw [hexec, hevents]
    have call : Episode K ⟨log.instanceEvents, vm ::ₘ vms⟩ _ :=
      .call ctx.schedule.revision message observed
    -- the call itself asks no constructor, so the next instance of the fallback keeps its number
    cases hexit with
    | alone => exact .single call
    | deserted given make =>
      rw [Log.nextId_eq, ← Log.nextIdAfter_callEvent vm ctx.schedule.revision message observed]
        at make ⊢
      rw [← List.singleton_append, ← List.append_assoc]
      exact .tail (.single call) (.pass (asked _ given) (.refused make))
    | @relieved fallback b given make =>
      have hrelief : (vm.substitute fallback b log).callEvent ctx.schedule.revision message
          observed = .executed (log.nextId fallback.constructor.origin) ctx.schedule.revision
            message (vm.tracing || observed) := rfl
      rw [hrelief]
      rw [Log.nextId_eq, ← Log.nextIdAfter_callEvent vm ctx.schedule.revision message observed]
        at make ⊢
      rw [← List.singleton_append, ← List.append_assoc]
      exact .tail (.single call) (.pass (asked _ given) (.relieve make _ _ _))

/-! ## Libraries -/

/-- Only a table for another version of the boundary is an instance that is not adopted. -/
theorem Plugin.of_adopt_eq_error {made : Option Table} {e : AbiError} (h : adopt made = .error e) :
    made = none ∨ ∃ table, made = some table ∧ table.abiVersion ≠ abiVersion ∧
      e = .versionMismatch table.abiVersion := by
  cases made with
  | none => exact .inl rfl
  | some table =>
    rw [adopt] at h
    split at h
    · cases h
    · rename_i hversion
      exact .inr ⟨table, rfl, hversion, (Except.error.inj h).symm⟩

/-- Registering a library makes one instance at most, to learn its name. -/
theorem Registry.insertLibrary_episodes (r : Registry) (path : String) (library : Library)
    (log : Log) (vms : Multiset Vm) (asked : ∀ c, library.Offers path c → K c .probe) :
    ReflTransGen (Episode K) ⟨log.instanceEvents, vms⟩
      ⟨(r.insertLibrary path library log).2.2.instanceEvents, vms⟩ := by
  cases hfound : library.findConstructor? (Library.candidateSymbols path) with
  | none =>
    simp only [insertLibrary, hfound]
    exact .refl
  | some found =>
    obtain ⟨symbol, exported⟩ := found
    have hasked := asked (.ofPlugin exported) ⟨symbol, exported, hfound, rfl⟩
    cases hmake : (Constructor.ofPlugin exported).make
        (log.nextId (Constructor.ofPlugin exported).origin).serial with
    | error e =>
      simp only [insertLibrary, hfound, Constructor.instantiate, hmake]
      rw [Log.instanceEvents_add rfl]
      rw [Log.nextId_eq] at hmake ⊢
      exact .single (.pass hasked (.refused hmake))
    | ok b =>
      simp only [insertLibrary, hfound, Constructor.instantiate, hmake, Instance.release]
      rw [Log.instanceEvents_add_notice, Log.instanceEvents_add rfl, Log.instanceEvents_add rfl,
        List.append_assoc, List.singleton_append]
      rw [Log.nextId_eq] at hmake ⊢
      exact .single (.pass hasked (.probe hmake))

theorem HostConfig.load_episodes (c : HostConfig) (surroundings : Surroundings) (path : String)
    (log : Log) (vms : Multiset Vm) (asked : ∀ c, surroundings.Offers path c → K c .probe) :
    ReflTransGen (Episode K) ⟨log.instanceEvents, vms⟩
      ⟨(c.load surroundings path log).2.2.instanceEvents, vms⟩ := by
  unfold load Registry.load
  cases hopen : surroundings.openLibrary path with
  | error reason => exact .refl
  | ok library =>
    exact c.registry.insertLibrary_episodes path library log vms
      fun c offers => asked c ⟨library, hopen, offers⟩

theorem HostConfig.loadAll_episodes (c : HostConfig) (surroundings : Surroundings)
    (paths : List String) (log : Log) (vms : Multiset Vm)
    (asked : ∀ path ∈ paths, ∀ c, surroundings.Offers path c → K c .probe) :
    ReflTransGen (Episode K) ⟨log.instanceEvents, vms⟩
      ⟨(loadAll surroundings c log paths).2.2.instanceEvents, vms⟩ := by
  induction paths generalizing c log with
  | nil => exact .refl
  | cons path rest ih =>
    have first := c.load_episodes surroundings path log vms (asked path List.mem_cons_self)
    rw [loadAll]
    rcases hload : c.load surroundings path log with ⟨answer, c', log'⟩
    rw [hload] at first
    cases answer with
    | error e => exact first
    | ok loaded =>
      exact first.trans (ih c' log' fun path h => asked path (List.mem_cons_of_mem _ h))

/-- Only the libraries of a configuration file leave events. -/
theorem ConfigFile.log_apply (file : ConfigFile) (surroundings : Surroundings) (c : HostConfig)
    (log : Log) :
    (file.apply surroundings c log).2.2 =
      (c.loadAll surroundings log (file.load.map file.resolve)).2.2 := by
  unfold apply
  split <;> rename_i hload <;> rw [hload]
  split
  · rfl
  · split <;> rfl

/-- Applying a configuration file makes instances of its libraries only. -/
theorem ConfigFile.apply_episodes (file : ConfigFile) (surroundings : Surroundings)
    (c : HostConfig) (log : Log) (vms : Multiset Vm)
    (asked : ∀ path ∈ file.load.map file.resolve, ∀ c, surroundings.Offers path c → K c .probe) :
    ReflTransGen (Episode K) ⟨log.instanceEvents, vms⟩
      ⟨(file.apply surroundings c log).2.2.instanceEvents, vms⟩ := by
  rw [log_apply]
  exact c.loadAll_episodes surroundings _ log vms asked

namespace Command

variable {surroundings : Surroundings} {request : HostRequest} {log : Log}

theorem log_startingConfig {path : String} {file : ConfigFile}
    (read : ConfigFile.read surroundings path = .ok file) :
    (startingConfig surroundings (some path) log).2 = (file.apply surroundings {} log).2.2 := by
  simp only [startingConfig, read]
  split <;> rename_i happly <;> rw [happly]

theorem log_configure {c : HostConfig} {log' : Log}
    (start : startingConfig surroundings request.config log = (.ok c, log')) :
    (configure surroundings request log).2 =
      (c.loadAll surroundings log' request.loads).2.2 := by
  simp only [configure, start]
  split <;> rename_i hload <;> rw [hload]
  split
  · rfl
  · split <;> rfl

/-- Configuring the host makes instances of the libraries of the file and of the command only. -/
theorem configure_episodes (surroundings : Surroundings) (request : HostRequest) (log : Log)
    (vms : Multiset Vm)
    (askedFile : ∀ path file, request.config = some path →
      ConfigFile.read surroundings path = .ok file →
      ∀ library ∈ file.load.map file.resolve, ∀ c, surroundings.Offers library c → K c .probe)
    (asked : ∀ library ∈ request.loads, ∀ c, surroundings.Offers library c → K c .probe) :
    ReflTransGen (Episode K) ⟨log.instanceEvents, vms⟩
      ⟨(configure surroundings request log).2.instanceEvents, vms⟩ := by
  have start : ReflTransGen (Episode K) ⟨log.instanceEvents, vms⟩
      ⟨(startingConfig surroundings request.config log).2.instanceEvents, vms⟩ := by
    cases hconfig : request.config with
    | none => exact .refl
    | some path =>
      cases hread : ConfigFile.read surroundings path with
      | error e =>
        simp only [startingConfig, hread]
        exact .refl
      | ok file =>
        rw [log_startingConfig hread]
        exact file.apply_episodes surroundings {} log vms (askedFile path file hconfig hread)
  rcases hstart : startingConfig surroundings request.config log with ⟨answer, log'⟩
  rw [hstart] at start
  cases answer with
  | error e =>
    simp only [configure, hstart]
    exact start
  | ok c =>
    rw [log_configure hstart]
    exact start.trans (c.loadAll_episodes surroundings request.loads log' vms asked)

end Command

/-! ## Virtual machines that are made -/

namespace Factory

variable {f : Factory} {name : Option String} {log : Log} {events : List Event}

theorem Creation.episodes_of_error {e : FactoryError}
    (h : f.Creation name log (.error e) events) (vms : Multiset Vm)
    (asked : ∀ c, f.Employs name c → K c (.serve f.options f.fallback?)) :
    ReflTransGen (Episode K) ⟨log.instanceEvents, vms⟩ ⟨log.instanceEvents ++ events, vms⟩ := by
  cases h with
  | unknown missing =>
    rw [List.append_nil]
  | refused entry make =>
    rw [Log.nextId_eq] at make ⊢
    exact .single (.pass (asked _ ⟨_, entry, rfl⟩) (.refused make))

theorem Creation.episode_of_ok {vm : Vm} (h : f.Creation name log (.ok vm) events)
    (vms : Multiset Vm)
    (asked : ∀ c, f.Employs name c → K c (.serve f.options f.fallback?)) (tracing : Bool) :
    Episode K ⟨log.instanceEvents, vms⟩
      ⟨log.instanceEvents ++ events, { vm with tracing } ::ₘ vms⟩ := by
  cases h with
  | made entry make =>
    exact .commission tracing _ (asked _ ⟨_, entry, rfl⟩) (log.nextId_eq _) make

end Factory

/-- Running code makes a virtual machine, has it called, and releases it. -/
theorem Command.run_episodes (f : Factory) (request : RunRequest) (log : Log) (vms : Multiset Vm)
    (asked : ∀ c, f.Employs request.vm c → K c (.serve f.options f.fallback?))
    (relief : ∀ fallback, f.fallback? = some fallback →
      K fallback.constructor (.relieve fallback.options)) :
    ReflTransGen (Episode K) ⟨log.instanceEvents, vms⟩
      ⟨(run f request log).2.instanceEvents, vms⟩ := by
  obtain ⟨answer, log', events, hcreate, hevents, hcreation⟩ := f.create_creation request.vm log
  cases answer with
  | error e =>
    simp only [run, hcreate]
    rw [hevents]
    exact hcreation.episodes_of_error _ asked
  | ok vm =>
    have made := hcreation.episode_of_ok vms asked vm.tracing
    rw [← hevents] at made
    have calls := vm.exec_episodes request.gas request.context false log' vms
      fun fallback given => relief fallback (hcreation.of_ok.1 ▸ given)
    rcases hexec : vm.exec request.gas request.context false log' with ⟨result, vm', log''⟩
    rw [hexec] at calls
    have hlog : (run f request log).2 = vm'.release log'' := by
      simp only [run, hcreate, hexec]
      split <;> rfl
    rw [hlog, Vm.release, Instance.release, Log.instanceEvents_add rfl]
    exact (calls.head made).tail .release

namespace Session

variable {s : Session} {name : String} {vm : Vm} {log : Log}

/-! ## Virtual machines by their names -/

theorem name_not_mem (h : s.vm? name = none) : ∀ entry ∈ s.vms, entry.1 ≠ name := by
  intro entry hentry heq
  rw [vm?, Option.map_eq_none_iff, List.find?_eq_none] at h
  exact h entry hentry (beq_iff_eq.mpr heq)

/-- The virtual machine of a name and those of other names are all there are. -/
theorem vms_of_vm? (named : s.Named) (h : s.vm? name = some vm) :
    ((s.vms.map (·.2) : List Vm) : Multiset Vm) =
      vm ::ₘ ((s.vms.filter (·.1 != name)).map (·.2) : List Vm) := by
  rw [vm?] at h
  rw [Named] at named
  generalize s.vms = entries at h named ⊢
  induction entries with
  | nil => cases h
  | cons entry rest ih =>
    rw [List.map_cons, List.nodup_cons] at named
    by_cases heq : entry.1 = name
    · rw [List.find?_cons_of_pos (by simpa using heq)] at h
      obtain rfl := Option.some.inj h
      -- names are distinct, so the filter takes away no other entry
      have others : rest.filter (·.1 != name) = rest := by
        refine List.filter_eq_self.mpr fun entry' hmem => bne_iff_ne.mpr fun heq' => named.1 ?_
        exact heq ▸ heq' ▸ List.mem_map_of_mem hmem
      rw [List.filter_cons_of_neg (by simp [heq]), others]
      rfl
    · rw [List.find?_cons_of_neg (by simpa using heq)] at h
      rw [List.filter_cons_of_pos (by simpa using heq), List.map_cons, List.map_cons,
        ← Multiset.cons_coe, ← Multiset.cons_coe, ih h named.2, Multiset.cons_swap]

theorem vms_discard (s : Session) (name : String) :
    (s.discard name).vms = s.vms.filter (·.1 != name) := by
  unfold discard
  cases h : s.vm? name with
  | none =>
    exact (List.filter_eq_self.mpr fun entry hentry =>
      bne_iff_ne.mpr (name_not_mem h entry hentry)).symm
  | some vm => rfl

theorem named_filter (named : s.Named) (name : String) :
    ((s.vms.filter (·.1 != name)).map (·.1)).Nodup :=
  List.Nodup.sublist (List.filter_sublist.map _) named

theorem named_cons_filter (named : s.Named) (name : String) (vm : Vm) :
    (((name, vm) :: s.vms.filter (·.1 != name)).map (·.1)).Nodup := by
  rw [List.map_cons, List.nodup_cons]
  refine ⟨fun hmem => ?_, named_filter named name⟩
  obtain ⟨entry, hentry, heq⟩ := List.mem_map.mp hmem
  exact bne_iff_ne.mp (List.mem_filter.mp hentry).2 heq

/-- A virtual machine that is discarded is released. -/
theorem discard_episodes (named : s.Named) (name : String) :
    ReflTransGen (Episode K) s.fleet (s.discard name).fleet := by
  cases h : s.vm? name with
  | none =>
    simp only [discard, h]
    exact .refl
  | some vm =>
    simp only [discard, h, fleet, Vm.release, Instance.release]
    rw [Log.instanceEvents_add rfl, vms_of_vm? named h]
    exact .single .release

/-- A virtual machine that is kept replaces the one of its name, which is released. -/
theorem keep_episodes (named : s.Named) (name : String) (vm : Vm) :
    ReflTransGen (Episode K) ⟨s.fleet.events, vm ::ₘ s.fleet.vms⟩ (s.keep name vm).fleet := by
  cases h : s.vm? name with
  | none =>
    simp only [keep, discard, h]
    exact .refl
  | some old =>
    simp only [keep, discard, h, fleet, Vm.release, Instance.release, List.map_cons]
    rw [Log.instanceEvents_add rfl, vms_of_vm? named h, Multiset.cons_swap,
      ← Multiset.cons_coe]
    exact .single .release

theorem named_discard (named : s.Named) (name : String) : (s.discard name).Named := by
  rw [Named, vms_discard]
  exact named_filter named name

theorem named_keep (named : s.Named) (name : String) (vm : Vm) : (s.keep name vm).Named := by
  rw [Named, keep, vms_discard]
  exact named_cons_filter named name vm

/-! ## Operations -/

/-- Making a virtual machine commissions an instance, and releases the one that had the name. -/
theorem create_episodes (named : s.Named) (name : String) (backend : Option String)
    (traced : Bool)
    (asked : ∀ c, s.currentFactory.Employs backend c →
      K c (.serve s.currentFactory.options s.currentFactory.fallback?)) :
    ReflTransGen (Episode K) s.fleet (s.create name backend traced).2.fleet ∧
      (s.create name backend traced).2.Named := by
  obtain ⟨answer, log, events, hcreate, hevents, hcreation⟩ :=
    s.currentFactory.create_creation backend s.log
  cases answer with
  | error e =>
    simp only [create, hcreate]
    refine ⟨?_, named⟩
    rw [fleet, fleet, hevents]
    exact hcreation.episodes_of_error _ asked
  | ok vm =>
    simp only [create, hcreate]
    have made := fun tracing => hcreation.episode_of_ok s.fleet.vms asked tracing
    simp only [← hevents] at made
    have named' : ({ s with log } : Session).Named := named
    refine ⟨?_, named_keep named' _ _⟩
    cases traced with
    | true => exact (keep_episodes named' name _).head (made true)
    | false => exact (keep_episodes named' name _).head (made vm.tracing)

theorem assemble_episodes (named : s.Named) (name : String) (c : Constructor)
    (options : List VmOption) (fallback : Option Fallback) (traced : Bool)
    (asked : K c (.serve options fallback)) :
    ReflTransGen (Episode K) s.fleet (s.assemble name c options fallback traced).2.fleet ∧
      (s.assemble name c options fallback traced).2.Named := by
  cases hmake : c.make (s.log.nextId c.origin).serial with
  | error e =>
    simp only [assemble, Constructor.instantiate, hmake]
    refine ⟨?_, named⟩
    rw [fleet, fleet, Log.instanceEvents_add rfl]
    rw [Log.nextId_eq] at hmake ⊢
    exact .single (.pass asked (.refused hmake))
  | ok b =>
    obtain ⟨log, hstart, hevents⟩ := Vm.start_eq
      { id := s.log.nextId c.origin, backend := b, state := b.start } options
      (s.log.add (.created (s.log.nextId c.origin)))
    simp only [assemble, Constructor.instantiate, hmake, hstart]
    have made : Episode K s.fleet ⟨log.instanceEvents,
        ⟨{ id := s.log.nextId c.origin, backend := b, state := b.configure b.start options },
          fallback, traced⟩ ::ₘ s.fleet.vms⟩ := by
      rw [hevents, Log.instanceEvents_add rfl, List.append_assoc]
      exact .commission traced _ asked (s.log.nextId_eq c.origin) hmake
    have named' : ({ s with log } : Session).Named := named
    exact ⟨(keep_episodes named' name _).head made, named_keep named' _ _⟩

/-- A call in a session concerns the virtual machine of its name, and its relief. -/
theorem execute_episodes (named : s.Named) (name : String) (gas : Nat) (context : CallContext)
    (observed : Bool)
    (asked : ∀ vm fallback, s.vm? name = some vm → vm.fallback = some fallback →
      K fallback.constructor (.relieve fallback.options)) :
    ReflTransGen (Episode K) s.fleet (s.execute name gas context observed).2.fleet ∧
      (s.execute name gas context observed).2.Named := by
  cases h : s.vm? name with
  | none =>
    simp only [execute, h]
    exact ⟨.refl, named⟩
  | some vm =>
    simp only [execute, h]
    refine ⟨?_, named_cons_filter named name _⟩
    simp only [fleet, List.map_cons, ← Multiset.cons_coe]
    rw [vms_of_vm? named h]
    exact vm.exec_episodes gas context observed s.log _ fun fallback => asked vm fallback h

/-- Whatever an operation does to instances, it does by episodes. -/
theorem perform_episodes (named : s.Named) (surroundings : Surroundings) (operation : Operation) :
    ReflTransGen (Episode (s.Commissions surroundings operation)) s.fleet
        (s.perform surroundings operation).2.fleet ∧
      (s.perform surroundings operation).2.Named := by
  cases operation with
  | newConfig registry => exact ⟨.refl, named⟩
  | addOption option => exact ⟨.refl, named⟩
  | parseOption text =>
    simp only [perform]
    cases s.config.parseOption text <;> exact ⟨.refl, named⟩
  | register name entry => exact ⟨.refl, named⟩
  | registerLibrary path library =>
    exact ⟨s.config.registry.insertLibrary_episodes path library s.log _ fun c => .registerLibrary,
      named⟩
  | load path =>
    exact ⟨s.config.load_episodes surroundings path s.log _ fun c => .load, named⟩
  | setDefault name =>
    simp only [perform]
    cases s.config.setDefault name <;> exact ⟨.refl, named⟩
  | setTrace trace => exact ⟨.refl, named⟩
  | applyFile path =>
    simp only [perform, applyFile]
    cases hread : ConfigFile.read surroundings path with
    | error e => exact ⟨.refl, named⟩
    | ok file =>
      exact ⟨file.apply_episodes surroundings s.config s.log _
        fun library hnamed c => .applyFile hread hnamed, named⟩
  | configure request =>
    have episodes := Command.configure_episodes surroundings request s.log s.fleet.vms
      (K := s.Commissions surroundings (.configure request))
      (fun path file given read library hnamed c => .configureFile given read hnamed)
      (fun library hnamed c => .configure hnamed)
    simp only [perform]
    rcases hconfigure : Command.configure surroundings request s.log with ⟨answer, log⟩
    rw [hconfigure] at episodes
    cases answer <;> exact ⟨episodes, named⟩
  | finalize => exact ⟨.refl, named⟩
  | create name backend traced => exact create_episodes named name backend traced fun c => .create
  | assemble name c options fallback traced =>
    exact assemble_episodes named name c options fallback traced .assemble
  | execute name gas context observed =>
    exact execute_episodes named name gas context observed fun vm fallback => .execute
  | drop name => exact ⟨discard_episodes named name, named_discard named name⟩
  | run request =>
    exact ⟨Command.run_episodes s.currentFactory request s.log _ (fun c => .run)
      fun fallback => .runRelief, named⟩
  | install => exact ⟨.refl, named⟩
  | useInstalled =>
    simp only [perform]
    cases s.installation.get <;> exact ⟨.refl, named⟩

/-! ## Whole sessions -/

theorem performAll_concat (s : Session) (surroundings : Surroundings) (operations : List Operation)
    (operation : Operation) :
    s.performAll surroundings (operations ++ [operation]) =
      ((s.performAll surroundings operations).perform surroundings operation).2 :=
  List.foldl_concat ..

/-- What is known of the instances of a session after some operations. -/
structure Accounted (surroundings : Surroundings) (operations : List Operation) : Prop where
  named : (performAll {} surroundings operations).Named
  sound : (performAll {} surroundings operations).fleet.Sound
  origins : ∀ id, (performAll {} surroundings operations).fleet.historyOf id ≠ [] →
    ∃ before operation after c purpose, operations = before ++ operation :: after ∧
      (performAll {} surroundings before).fleet.historyOf id = [] ∧
      (performAll {} surroundings before).Commissions surroundings operation c purpose ∧
      c.origin = id.origin ∧
      ∀ later, later <+: after →
        (performAll {} surroundings (before ++ operation :: later)).fleet.Accounts id c purpose

theorem accounted_nil (surroundings : Surroundings) : Accounted surroundings [] where
  named := List.nodup_nil
  sound :=
    { numbered := fun _ hne => absurd rfl hne
      recorded := fun _ hvm => absurd hvm (Multiset.notMem_zero _)
      distinct := Multiset.nodup_zero }
  origins := fun _ hne => absurd rfl hne

theorem Accounted.concat {surroundings : Surroundings} {operations : List Operation}
    (h : Accounted surroundings operations) (operation : Operation) :
    Accounted surroundings (operations ++ [operation]) := by
  obtain ⟨episodes, named⟩ := perform_episodes h.named surroundings operation
  have progress := progress_of_episodes episodes h.sound
  rw [← performAll_concat] at progress named
  refine ⟨named, progress.sound, fun id hid => ?_⟩
  -- an instance has come by this operation, or was accounted for and still is
  by_cases hnew : (performAll {} surroundings operations).fleet.historyOf id = []
  · obtain ⟨c, purpose, commissions, origin, accounts⟩ := progress.newcomers id hnew hid
    refine ⟨operations, operation, [], c, purpose, rfl, hnew, commissions, origin, ?_⟩
    intro later hlater
    rw [List.prefix_nil.mp hlater]
    exact accounts
  · obtain ⟨before, first, after, c, purpose, rfl, hbefore, commissions, origin, accounts⟩ :=
      h.origins id hnew
    refine ⟨before, first, after ++ [operation], c, purpose, ?_, hbefore, commissions, origin, ?_⟩
    · rw [List.append_assoc, List.cons_append]
    · intro later hlater
      rcases List.prefix_concat_iff.mp hlater with rfl | hlater
      · rw [← List.cons_append, ← List.append_assoc]
        exact progress.accounts id c purpose (accounts after List.prefix_rfl)
      · exact accounts later hlater

theorem accounted (surroundings : Surroundings) (operations : List Operation) :
    Accounted surroundings operations := by
  induction operations using List.reverseRecOn with
  | nil => exact accounted_nil surroundings
  | append_singleton operations operation ih => exact ih.concat operation

/-- The life of every instance of a session. It was made by the constructor that one operation
called for one purpose, when nothing was known of it; and after this operation and any later ones it
has fared as the purpose says, which is over as soon as the purpose is fulfilled, and for the
instance of a virtual machine when this one is gone. No two virtual machines share an instance. Only
what a constructor has refused to make is never released. -/
theorem performAll_lifecycle (surroundings : Surroundings) (operations : List Operation) :
    let s := performAll {} surroundings
    let F := (s operations).fleet
    (∀ id, F.historyOf id ≠ [] →
      ∃ before operation after c purpose, operations = before ++ operation :: after ∧
        (s before).fleet.historyOf id = [] ∧
        (s before).Commissions surroundings operation c purpose ∧ c.origin = id.origin ∧
        (∀ later, later <+: after →
          (s (before ++ operation :: later)).fleet.Accounts id c purpose) ∧
        (.released id ∉ F.historyOf id → (∀ vm ∈ F.vms, vm.engine.id ≠ id) →
          ∃ e, F.historyOf id = [.refused id e] ∧
            ∀ plugin, c = .ofPlugin plugin → plugin.make id.serial = none ∨
              ∃ table, plugin.make id.serial = some table ∧
                table.abiVersion ≠ Plugin.abiVersion ∧
                e = .versionMismatch table.abiVersion)) ∧
    (∀ vm ∈ F.vms, F.historyOf vm.engine.id ≠ []) ∧
    (F.vms.map fun vm => vm.engine.id).Nodup := by
  intro s F
  have h := accounted surroundings operations
  refine ⟨fun id hid => ?_, h.sound.recorded, h.sound.distinct⟩
  obtain ⟨before, operation, after, c, purpose, rfl, hbefore, commissions, origin, accounts⟩ :=
    h.origins id hid
  refine ⟨before, operation, after, c, purpose, rfl, hbefore, commissions, origin, accounts, ?_⟩
  intro unreleased gone
  have now := accounts after List.prefix_rfl
  obtain ⟨e, hmake, hhistory⟩ := now.refused_of_unreleased unreleased gone
  refine ⟨e, hhistory, ?_⟩
  rintro plugin rfl
  exact Plugin.of_adopt_eq_error hmake

end Session

end EvmDispatch
