import EvmDispatch.ConfigFile.Apply
import EvmDispatch.Proofs.Host.Registration
import EvmDispatch.Proofs.Vm.Creation
import Mathlib.Data.List.TakeWhile

/-!
# Configurations that are built up

Each operation on a configuration is described by what it adds: the libraries that could be loaded
before the first failure (`HostConfig.loadAll_of_loads`), the options up to the first text that is
none (`HostConfig.parseOptions_eq`), and a default that is registered. So a configuration only grows
(`HostConfig.Grows`), also by an operation that fails halfway. As a new configuration has the
reference interpreter registered, which is also its default, every later one has its default and
the reference interpreter registered, and its factory never misses them
(`HostConfig.changeAll_complete`).
-/

namespace EvmDispatch

/-! ## Operations that register nothing -/

/-- The operations that build up a configuration without registering anything. -/
inductive HostConfig.Adjustment where
  | addOption (o : VmOption)
  | parseOption (text : String)
  | setDefault (name : String)
  | setTrace (trace : Bool)

/-- The configuration after an operation. One that fails leaves it as it is. -/
def HostConfig.adjust (c : HostConfig) : Adjustment → HostConfig
  | .addOption o => c.addOption o
  | .parseOption text =>
    match c.parseOption text with
    | .ok c => c
    | .error _ => c
  | .setDefault name =>
    match c.setDefault name with
    | .ok c => c
    | .error _ => c
  | .setTrace trace => c.setTrace trace

theorem HostConfig.registry_adjust (c : HostConfig) (a : Adjustment) :
    (c.adjust a).registry = c.registry := by
  cases a with
  | addOption o => rfl
  | parseOption text =>
    simp only [adjust, parseOption]
    cases VmOption.parse text <;> rfl
  | setDefault name =>
    simp only [adjust, setDefault]
    cases c.registry.contains name <;> rfl
  | setTrace trace => rfl

theorem HostConfig.registry_foldl_adjust (c : HostConfig) (adjustments : List Adjustment) :
    (adjustments.foldl adjust c).registry = c.registry := by
  induction adjustments generalizing c with
  | nil => rfl
  | cons a rest ih => rw [List.foldl_cons, ih, registry_adjust]

/-! ## Options -/

/-- A text is an option in its written form. The name ends at the first equals sign. -/
structure VmOption.Splits (text : String) (o : VmOption) : Prop where
  text_eq : text = o.name ++ "=" ++ o.value
  first : '=' ∉ o.name.toList

/-- What is an option in its written form is parsed as this option. -/
theorem VmOption.parse_of_splits {text : String} {o : VmOption} (h : Splits text o) :
    parse text = .ok o := by
  have hlist : text.toList = o.name.toList ++ '=' :: o.value.toList := by
    rw [h.text_eq]
    simp
  have hname : ∀ c ∈ o.name.toList, (c != '=') = true := by
    intro c hc
    exact bne_iff_ne.mpr fun heq => h.first (heq ▸ hc)
  unfold parse
  rw [hlist, List.takeWhile_append_of_pos hname, List.dropWhile_append_of_pos hname]
  simp

/-- A text with an equals sign is an option in its written form. -/
theorem VmOption.exists_splits {text : String} (h : '=' ∈ text.toList) : ∃ o, Splits text o := by
  obtain ⟨name, value, hlist, hname⟩ := List.eq_append_cons_of_mem h
  refine ⟨{ name := String.ofList name, value := String.ofList value }, ?_, ?_⟩
  · apply String.toList_injective
    rw [hlist]
    simp
  · rwa [String.toList_ofList]

/-- A text without an equals sign is given back in the error. -/
theorem VmOption.parse_of_not_mem {text : String} (h : '=' ∉ text.toList) :
    parse text = .error ⟨text⟩ := by
  have hdrop : text.toList.dropWhile (· != '=') = [] := by
    rw [List.dropWhile_eq_nil_iff]
    intro c hc
    exact bne_iff_ne.mpr fun heq => h (heq ▸ hc)
  unfold parse
  rw [hdrop]

namespace HostConfig

variable {c c' c'' : HostConfig} {log log' : Log}

/-- Of a list of options those are added that come before the first text that is none. -/
theorem parseOptions_eq (c : HostConfig) (texts : List String) :
    ∃ options, (c.parseOptions texts).2 = { c with options := c.options ++ options } ∧
      ((c.parseOptions texts).1 = .ok () ↔ ∀ text ∈ texts, '=' ∈ text.toList) ∧
      ((c.parseOptions texts).1 = .ok () → List.Forall₂ VmOption.Splits texts options) := by
  induction texts generalizing c with
  | nil =>
    refine ⟨[], ?_, ?_, fun _ => .nil⟩
    · rw [List.append_nil]
      rfl
    · exact ⟨fun _ => nofun, fun _ => rfl⟩
  | cons text rest ih =>
    rw [parseOptions, parseOption]
    by_cases hmem : '=' ∈ text.toList
    · obtain ⟨o, hsplits⟩ := VmOption.exists_splits hmem
      rw [VmOption.parse_of_splits hsplits]
      obtain ⟨options, hadded, hanswer, hsplit⟩ := ih (c.addOption o)
      refine ⟨o :: options, ?_, ?_, fun hok => .cons hsplits (hsplit hok)⟩
      · rw [hadded, addOption, List.append_assoc, List.singleton_append]
      · rw [hanswer, List.forall_mem_cons, and_iff_right hmem]
    · rw [VmOption.parse_of_not_mem hmem]
      refine ⟨[], ?_, ?_, nofun⟩
      · rw [List.append_nil]
      · exact ⟨nofun, fun hall => absurd (hall text List.mem_cons_self) hmem⟩

/-! ## Defaults -/

/-- Only a registered name can be the default, and nothing else changes with it. -/
theorem setDefault_eq_ok_iff {name : String} :
    c.setDefault name = .ok c' ↔
      (c.registry.get? name).isSome ∧ c' = { c with default := name } := by
  rw [setDefault, Registry.contains_eq]
  cases (c.registry.get? name).isSome with
  | true => exact ⟨fun h => ⟨rfl, (Except.ok.inj h).symm⟩, fun h => h.2 ▸ rfl⟩
  | false => exact ⟨nofun, nofun⟩

/-- A choice can be made if the name that is asked for, if any, is registered. Tracing that is on
stays on. -/
theorem choose_eq_ok_iff {name : Option String} {trace : Bool} :
    c.choose name trace = .ok c' ↔
      (∀ vm, name = some vm → (c.registry.get? vm).isSome) ∧
        c' = { c with default := name.getD c.default, trace := c.trace || trace } := by
  have htrace (d : HostConfig) :
      (if trace then d.setTrace true else d) = { d with trace := d.trace || trace } := by
    cases trace <;> simp [setTrace]
  simp only [choose, htrace]
  cases name with
  | none => exact ⟨fun h => ⟨nofun, (Except.ok.inj h).symm⟩, fun h => h.2 ▸ rfl⟩
  | some vm =>
    cases hset : c.setDefault vm with
    | ok d =>
      obtain ⟨hmem, rfl⟩ := setDefault_eq_ok_iff.mp hset
      simp only [hset]
      refine ⟨fun h => ⟨?_, (Except.ok.inj h).symm⟩, fun h => h.2 ▸ rfl⟩
      intro name heq
      obtain rfl := Option.some.inj heq
      exact hmem
    | error e =>
      simp only [hset]
      refine ⟨nofun, fun h => ?_⟩
      have hok := setDefault_eq_ok_iff.mpr ⟨h.1 vm rfl, rfl⟩
      cases hset.symm.trans hok

end HostConfig

/-! ## Libraries at paths -/

/-- What loading the library at a path comes to. -/
inductive Surroundings.Loads (surroundings : Surroundings) (path : String) (log : Log) :
    Except LoadError (LoadedBackend × RegistryEntry) → Log → Prop where
  | opened {library : Library} {result : Except LoadError (LoadedBackend × RegistryEntry)}
    {log' : Log} (opens : surroundings.openLibrary path = .ok library)
    (loading : library.Loading path log result log') :
    Loads surroundings path log result log'
  | unopened {reason : String} (fails : surroundings.openLibrary path = .error reason) :
    Loads surroundings path log (.error (.open path reason)) log

/-- What loading the libraries at several paths comes to: what is registered before the first
failure, whether there is one, and the log afterwards. -/
inductive Surroundings.LoadsAll (surroundings : Surroundings) :
    Log → List String → List (String × RegistryEntry) → Except LoadError Unit → Log → Prop where
  | nil {log : Log} : LoadsAll surroundings log [] [] (.ok ()) log
  | success {log log₁ log₂ : Log} {path : String} {rest : List String} {loaded : LoadedBackend}
    {e : RegistryEntry} {entries : List (String × RegistryEntry)} {answer : Except LoadError Unit}
    (loads : surroundings.Loads path log (.ok (loaded, e)) log₁)
    (later : LoadsAll surroundings log₁ rest entries answer log₂) :
    LoadsAll surroundings log (path :: rest) ((loaded.name, e) :: entries) answer log₂
  | failure {log log₁ : Log} {path : String} {rest : List String} {e : LoadError}
    (loads : surroundings.Loads path log (.error e) log₁) :
    LoadsAll surroundings log (path :: rest) [] (.error e) log₁

/-- Loading the library at a path always comes to something. -/
theorem Surroundings.exists_loads (surroundings : Surroundings) (path : String) (log : Log) :
    ∃ result log', surroundings.Loads path log result log' := by
  cases hopen : surroundings.openLibrary path with
  | error reason => exact ⟨_, _, .unopened hopen⟩
  | ok library =>
    obtain ⟨result, log', loading⟩ := library.exists_loading path log
    exact ⟨_, _, .opened hopen loading⟩

theorem Surroundings.exists_loadsAll (surroundings : Surroundings) (log : Log)
    (paths : List String) :
    ∃ entries answer log', surroundings.LoadsAll log paths entries answer log' := by
  induction paths generalizing log with
  | nil => exact ⟨_, _, _, .nil⟩
  | cons path rest ih =>
    obtain ⟨result, log₁, loads⟩ := surroundings.exists_loads path log
    cases result with
    | error e => exact ⟨_, _, _, .failure loads⟩
    | ok found =>
      obtain ⟨entries, answer, log₂, later⟩ := ih log₁
      exact ⟨_, _, _, .success loads later⟩

namespace HostConfig

variable {c c' c'' : HostConfig} {log log' : Log} {surroundings : Surroundings}

theorem load_of_loads {path : String} {result : Except LoadError (LoadedBackend × RegistryEntry)}
    (h : surroundings.Loads path log result log') (c : HostConfig) :
    c.load surroundings path log =
      (result.map (·.1),
        { c with
          registry := c.registry.receive (result.map fun found => (found.1.name, found.2)) },
        log') := by
  cases h with
  | opened opens loading =>
    simp only [load, Registry.load, opens, Registry.insertLibrary_of_loading loading]
  | unopened fails =>
    simp only [load, Registry.load, fails]
    rfl

/-- What is registered before the first failure stays registered. -/
theorem loadAll_of_loads {paths : List String} {entries : List (String × RegistryEntry)}
    {answer : Except LoadError Unit} (h : surroundings.LoadsAll log paths entries answer log')
    (c : HostConfig) :
    c.loadAll surroundings log paths =
      (answer, { c with registry := c.registry.insertAll entries }, log') := by
  induction h generalizing c with
  | nil => rfl
  | success loads later ih =>
    rw [loadAll, load_of_loads loads]
    exact ih _
  | failure loads =>
    rw [loadAll, load_of_loads loads]
    rfl

/-! ## Growth -/

/-- No name gets lost, and a new default is registered. -/
structure Grows (c c' : HostConfig) : Prop where
  names : ∀ name, (c.registry.get? name).isSome → (c'.registry.get? name).isSome
  default : c'.default = c.default ∨ (c'.registry.get? c'.default).isSome

theorem Grows.refl (c : HostConfig) : c.Grows c := ⟨fun _ h => h, .inl rfl⟩

theorem Grows.trans (first : c.Grows c') (second : c'.Grows c'') : c.Grows c'' where
  names name h := second.names name (first.names name h)
  default := by
    rcases second.default with hsame | hnew
    · rw [hsame]
      exact first.default.imp id (second.names _)
    · exact .inr hnew

/-- Registering more backends. -/
theorem grows_insertAll (c : HostConfig) (entries : List (String × RegistryEntry)) :
    c.Grows { c with registry := c.registry.insertAll entries } where
  names name h := by
    rw [Registry.get?_insertAll, Option.isSome_or, h, Bool.or_true]
  default := .inl rfl

theorem setDefault_grows {name : String} (h : c.setDefault name = .ok c') : c.Grows c' := by
  obtain ⟨hmem, rfl⟩ := setDefault_eq_ok_iff.mp h
  exact ⟨fun _ h => h, .inr hmem⟩

theorem parseOption_grows {text : String} (h : c.parseOption text = .ok c') : c.Grows c' := by
  unfold parseOption at h
  split at h
  · obtain rfl := Except.ok.inj h
    exact ⟨fun _ h => h, .inl rfl⟩
  · cases h

theorem parseOptions_grows (c : HostConfig) (texts : List String) :
    c.Grows (c.parseOptions texts).2 := by
  obtain ⟨options, hadded, -⟩ := c.parseOptions_eq texts
  rw [hadded]
  exact ⟨fun _ h => h, .inl rfl⟩

theorem choose_grows {name : Option String} {trace : Bool} (h : c.choose name trace = .ok c') :
    c.Grows c' := by
  obtain ⟨hmem, rfl⟩ := choose_eq_ok_iff.mp h
  refine ⟨fun _ h => h, ?_⟩
  cases name with
  | none => exact .inl rfl
  | some vm => exact .inr (hmem vm rfl)

/-- Operations that do not register anything only let a configuration grow. -/
theorem adjust_grows (c : HostConfig) (a : Adjustment) : c.Grows (c.adjust a) := by
  cases a with
  | addOption o => exact ⟨fun _ h => h, .inl rfl⟩
  | parseOption text =>
    simp only [adjust]
    cases h : c.parseOption text with
    | ok c' => exact parseOption_grows h
    | error e => exact .refl c
  | setDefault name =>
    simp only [adjust]
    cases h : c.setDefault name with
    | ok c' => exact setDefault_grows h
    | error e => exact .refl c
  | setTrace trace => exact ⟨fun _ h => h, .inl rfl⟩

theorem receive_grows (c : HostConfig) (result : Except LoadError (String × RegistryEntry)) :
    c.Grows { c with registry := c.registry.receive result } := by
  cases result with
  | ok entry => exact c.grows_insertAll [entry]
  | error e => exact .refl c

theorem registerLibrary_grows (c : HostConfig) (path : String) (library : Library) (log : Log) :
    c.Grows (c.registerLibrary path library log).2.1 := by
  obtain ⟨result, log', loading⟩ := library.exists_loading path log
  rw [registerLibrary, Registry.insertLibrary_of_loading loading]
  exact c.receive_grows _

theorem load_grows (c : HostConfig) (surroundings : Surroundings) (path : String) (log : Log) :
    c.Grows (c.load surroundings path log).2.1 := by
  obtain ⟨result, log', loads⟩ := surroundings.exists_loads path log
  rw [load_of_loads loads]
  exact c.receive_grows _

/-- A configuration file that is applied only up to some point leaves a grown configuration too. -/
theorem apply_grows (file : ConfigFile) (surroundings : Surroundings) (c : HostConfig) (log : Log) :
    c.Grows (file.apply surroundings c log).2.1 := by
  obtain ⟨entries, answer, log', loads⟩ :=
    surroundings.exists_loadsAll log (file.load.map file.resolve)
  have loaded := c.grows_insertAll entries
  rw [ConfigFile.apply, loadAll_of_loads loads]
  cases answer with
  | error e => exact loaded
  | ok _ =>
    have parsed := loaded.trans (parseOptions_grows _ file.options)
    rcases hparse : HostConfig.parseOptions { c with registry := c.registry.insertAll entries }
      file.options with ⟨_ | _, c₂⟩
    · rw [hparse] at parsed
      simp only [hparse]
      exact parsed
    · rw [hparse] at parsed
      simp only [hparse]
      cases hchoose : c₂.choose file.vm file.trace with
      | error e => exact parsed
      | ok c₃ => exact parsed.trans (choose_grows hchoose)

/-! ## Whole histories -/

/-- An operation on a configuration, under what is found at the paths at that time. -/
inductive Change where
  | adjust (a : Adjustment)
  | register (name : String) (e : RegistryEntry)
  | registerLibrary (path : String) (library : Library)
  | load (surroundings : Surroundings) (path : String)
  | applyFile (surroundings : Surroundings) (file : ConfigFile)

/-- The configuration after an operation, however this one ends, and the log. -/
def change (c : HostConfig) (log : Log) : Change → HostConfig × Log
  | .adjust a => (c.adjust a, log)
  | .register name e => (c.register name e, log)
  | .registerLibrary path library => (c.registerLibrary path library log).2
  | .load surroundings path => (c.load surroundings path log).2
  | .applyFile surroundings file => (file.apply surroundings c log).2

/-- The configuration after a number of operations, and the log. -/
def changeAll (c : HostConfig) (log : Log) : List Change → HostConfig × Log
  | [] => (c, log)
  | operation :: rest =>
    let (c, log) := c.change log operation
    c.changeAll log rest

/-- Every operation lets a configuration grow, however it ends. -/
theorem change_grows (c : HostConfig) (log : Log) (operation : Change) :
    c.Grows (c.change log operation).1 := by
  cases operation with
  | adjust a => exact c.adjust_grows a
  | register name e => exact c.grows_insertAll [(name, e)]
  | registerLibrary path library => exact c.registerLibrary_grows path library log
  | load surroundings path => exact c.load_grows surroundings path log
  | applyFile surroundings file => exact c.apply_grows file surroundings log

theorem changeAll_grows (c : HostConfig) (log : Log) (changes : List Change) :
    c.Grows (c.changeAll log changes).1 := by
  induction changes generalizing c log with
  | nil => exact .refl c
  | cons operation rest ih => exact (c.change_grows log operation).trans (ih _ _)

/-- The default and what declined calls fall back on are registered. -/
structure Complete (c : HostConfig) : Prop where
  default : (c.registry.get? c.default).isSome
  reference : (c.registry.get? defaultBackend).isSome

/-- What a complete configuration grows into is complete. -/
theorem Complete.of_grows (h : c.Complete) (grows : c.Grows c') : c'.Complete where
  default := by
    rcases grows.default with hsame | hnew
    · rw [hsame]
      exact grows.names _ h.default
    · exact hnew
  reference := grows.names _ h.reference

theorem complete_initial : Complete {} := by
  have h : (Registry.builtins.get? defaultBackend).isSome = true := by
    rw [defaultBackend, Registry.get?_builtins_interpreter, Option.isSome_some]
  exact ⟨h, h⟩

/-- Whatever operations have built up a configuration, its default and the reference interpreter are
registered. So its factory always knows the backend of a virtual machine that is made without a
name, and gives every virtual machine the reference interpreter with all options to fall back on. -/
theorem changeAll_complete (changes : List Change) (log : Log) :
    let c := (changeAll {} log changes).1
    let factory := c.finalize
    c.default ∈ c.registry.names ∧ "interpreter" ∈ c.registry.names ∧
    (∀ now name available,
      (factory.create none now).1 ≠ .error (.unknownBackend name available)) ∧
    ∀ name now vm, (factory.create name now).1 = .ok vm →
      ∃ e, factory.registry.get? "interpreter" = some e ∧
        vm.fallback = some
          { name := "interpreter", constructor := e.constructor, options := factory.options } := by
  intro c factory
  have complete : c.Complete := complete_initial.of_grows (changeAll_grows {} log changes)
  have listed := c.registry.listed
  refine ⟨(listed.mem_names _).mpr complete.default, (listed.mem_names _).mpr complete.reference,
    ?_, ?_⟩
  · intro now name available herror
    obtain ⟨answer, log', events, hcreate, -, hcreation⟩ := factory.create_creation none now
    rw [hcreate] at herror
    obtain rfl : answer = _ := herror
    cases hcreation with
    | unknown missing =>
      have hsome := complete.default
      rw [show c.registry.get? c.default = none from missing] at hsome
      cases hsome
  · intro name now vm hok
    obtain ⟨e, he⟩ := Option.isSome_iff_exists.mp complete.reference
    have hfallback : vm.fallback = factory.fallback? :=
      (Factory.of_create_eq_ok (Prod.ext hok rfl)).1
    refine ⟨e, he, ?_⟩
    rw [hfallback, Factory.fallback?, show factory.registry.get? defaultBackend = some e from he]
    rfl

end HostConfig

end EvmDispatch
