import EvmDispatch.Library
import Mathlib.Data.String.Basic

/-!
# Registrations

A backend is registered by an entry of its own, as a backend of this library, or from a library that
exports a constructor. `Library.Loading` lists what the last of these can come to, and
`Registration.Runs` what any of them can. A registration that fails leaves the registry as it is,
and one that succeeds changes it at one name. So after a history of registrations the registry is
the one from before, overlaid by what the successful ones have registered (`Registry.enrollAll_eq`),
and what counts for a name is the last of them.
-/

namespace EvmDispatch

/-- An attempt to register a backend. -/
inductive Registration where
  | entry (name : String) (e : RegistryEntry)
  | builtin (name : String) (b : Backend)
  | library (path : String) (library : Library)

/-- Why what a constructor has returned cannot be used. -/
inductive Plugin.Unusable : Option Table → AbiError → Prop where
  | null : Unusable none .nullInstance
  | mismatched {table : Table} (version : table.abiVersion ≠ 1) :
    Unusable (some table) (.versionMismatch table.abiVersion)

/-- The constructor that counts in a library: it is exported under a symbol that is tried, and under
none that is tried before. -/
def Library.Exports (library : Library) (path symbol : String) (exported : PluginConstructor) :
    Prop :=
  ∃ before after, candidateSymbols path = before ++ symbol :: after ∧
    (∀ s ∈ before, library.constructor? s = none) ∧ library.constructor? symbol = some exported

/-- An attempt to make an instance by the constructor that a library exports. -/
inductive PluginConstructor.Attempt (exported : PluginConstructor) (log : Log) :
    Except Plugin.AbiError Instance → Log → Prop where
  | made {table : Plugin.Table}
    (made : exported.make (log.nextId exported.origin).serial = some table)
    (version : table.abiVersion = 1) :
    Attempt exported log
      (.ok
        { id := log.nextId exported.origin, backend := table.backend
          state := table.backend.start })
      (log.add (.created (log.nextId exported.origin)))
  | refused {cause : Plugin.AbiError}
    (made : Plugin.Unusable (exported.make (log.nextId exported.origin).serial) cause) :
    Attempt exported log (.error cause) (log.add (.refused (log.nextId exported.origin) cause))

/-- What loading a library comes to: what it turns out to hold and what is registered for it, or why
it fails, and the log afterwards. -/
inductive Library.Loading (library : Library) (path : String) (log : Log) :
    Except LoadError (LoadedBackend × RegistryEntry) → Log → Prop where
  | loaded {symbol : String} {exported : PluginConstructor} {probe : Instance} {log' : Log}
    (first : library.Exports path symbol exported)
    (attempt : exported.Attempt log (.ok probe) log') :
    Loading library path log
      (.ok
        ({ name := probe.backend.name, version := probe.backend.version, path, symbol },
          { kind := .dynamic path symbol, constructor := .ofPlugin exported }))
      ((probe.release log').add
        (.notice .info ("Loaded backend " ++ probe.backend.name ++ " " ++ probe.backend.version)))
  | missing (unexported : ∀ s ∈ candidateSymbols path, library.constructor? s = none) :
    Loading library path log (.error (.missingSymbol path (candidateSymbols path))) log
  | unusable {symbol : String} {exported : PluginConstructor} {cause : Plugin.AbiError} {log' : Log}
    (first : library.Exports path symbol exported)
    (attempt : exported.Attempt log (.error cause) log') :
    Loading library path log (.error (.abi path cause)) log'

/-- What a registration comes to: what it registers under which name, or why it fails, and the log
afterwards. -/
inductive Registration.Runs (log : Log) :
    Registration → Except LoadError (String × RegistryEntry) → Log → Prop where
  | entry {name : String} {e : RegistryEntry} : Runs log (.entry name e) (.ok (name, e)) log
  | builtin {name : String} {b : Backend} :
    Runs log (.builtin name b) (.ok (name, { kind := .builtin, constructor := .builtin b })) log
  | library {path : String} {library : Library}
    {result : Except LoadError (LoadedBackend × RegistryEntry)} {log' : Log}
    (loading : library.Loading path log result log') :
    Runs log (.library path library) (result.map fun found => (found.1.name, found.2)) log'

/-- What a history of registrations registers, in its order, and the log afterwards. -/
inductive Registration.Enters : Log → List Registration → List (String × RegistryEntry) → Log →
    Prop where
  | nil {log : Log} : Enters log [] [] log
  | success {log log₁ log₂ : Log} {registration : Registration} {rest : List Registration}
    {entry : String × RegistryEntry} {entries : List (String × RegistryEntry)}
    (runs : registration.Runs log (.ok entry) log₁) (later : Enters log₁ rest entries log₂) :
    Enters log (registration :: rest) (entry :: entries) log₂
  | failure {log log₁ log₂ : Log} {registration : Registration} {rest : List Registration}
    {e : LoadError} {entries : List (String × RegistryEntry)}
    (runs : registration.Runs log (.error e) log₁) (later : Enters log₁ rest entries log₂) :
    Enters log (registration :: rest) entries log₂

/-! ## Libraries -/

/-- The constructor that is found is the one that counts. -/
theorem Library.exports_iff {library : Library} {path symbol : String}
    {exported : PluginConstructor} :
    library.findConstructor? (candidateSymbols path) = some (symbol, exported) ↔
      library.Exports path symbol exported := by
  rw [findConstructor?, List.findSome?_eq_some_iff]
  constructor
  · rintro ⟨before, symbol', after, hsplit, hfound, hbefore⟩
    obtain ⟨c, hc, heq⟩ := Option.map_eq_some_iff.mp hfound
    obtain ⟨rfl, rfl⟩ := Prod.mk.inj heq
    exact ⟨before, after, hsplit, fun s hs => Option.map_eq_none_iff.mp (hbefore s hs), hc⟩
  · rintro ⟨before, after, hsplit, hbefore, hc⟩
    refine ⟨before, symbol, after, hsplit, ?_, fun s hs => ?_⟩
    · rw [hc, Option.map_some]
    · rw [hbefore s hs, Option.map_none]

theorem Library.findConstructor?_eq_none_iff {library : Library} {symbols : List String} :
    library.findConstructor? symbols = none ↔ ∀ s ∈ symbols, library.constructor? s = none := by
  simp only [findConstructor?, List.findSome?_eq_none_iff, Option.map_eq_none_iff]

theorem Plugin.adopt_of_version {table : Table} (h : table.abiVersion = 1) :
    adopt (some table) = .ok table.backend :=
  if_pos h

theorem Plugin.Unusable.adopt {made : Option Table} {cause : AbiError} (h : Unusable made cause) :
    Plugin.adopt made = .error cause := by
  cases h with
  | null => rfl
  | mismatched version => exact if_neg version

namespace PluginConstructor

variable {exported : PluginConstructor} {log log' : Log}
  {answer : Except Plugin.AbiError Instance}

theorem exists_attempt (exported : PluginConstructor) (log : Log) :
    ∃ answer log', exported.Attempt log answer log' := by
  cases hmake : exported.make (log.nextId exported.origin).serial with
  | none =>
    have made : Plugin.Unusable (exported.make (log.nextId exported.origin).serial)
        .nullInstance := hmake ▸ .null
    exact ⟨_, _, .refused made⟩
  | some table =>
    by_cases version : table.abiVersion = 1
    · exact ⟨_, _, .made hmake version⟩
    · have made : Plugin.Unusable (exported.make (log.nextId exported.origin).serial)
          (.versionMismatch table.abiVersion) := hmake ▸ .mismatched version
      exact ⟨_, _, .refused made⟩

theorem Attempt.instantiate_eq (h : exported.Attempt log answer log') :
    (Constructor.ofPlugin exported).instantiate log = (answer, log') := by
  cases h with
  | made made version =>
    simp only [Constructor.instantiate, Constructor.ofPlugin, made, Plugin.adopt_of_version version]
  | refused made => simp only [Constructor.instantiate, Constructor.ofPlugin, made.adopt]

/-- Instances of a loaded library come from the constructor that it exports. -/
theorem instantiate_iff :
    (Constructor.ofPlugin exported).instantiate log = (answer, log') ↔
      exported.Attempt log answer log' := by
  refine ⟨fun h => ?_, Attempt.instantiate_eq⟩
  obtain ⟨answer', log'', hattempt⟩ := exported.exists_attempt log
  obtain ⟨rfl, rfl⟩ := Prod.mk.inj (h.symm.trans hattempt.instantiate_eq)
  exact hattempt

end PluginConstructor

theorem Library.exists_loading (library : Library) (path : String) (log : Log) :
    ∃ result log', library.Loading path log result log' := by
  cases hfound : library.findConstructor? (Library.candidateSymbols path) with
  | none => exact ⟨_, _, .missing (Library.findConstructor?_eq_none_iff.mp hfound)⟩
  | some found =>
    have first := Library.exports_iff.mp hfound
    obtain ⟨answer, log', attempt⟩ := found.2.exists_attempt log
    cases answer with
    | ok probe => exact ⟨_, _, .loaded first attempt⟩
    | error cause => exact ⟨_, _, .unusable first attempt⟩

/-! ## Registrations -/

theorem Registration.exists_runs (registration : Registration) (log : Log) :
    ∃ result log', registration.Runs log result log' := by
  cases registration with
  | entry name e => exact ⟨_, _, .entry⟩
  | builtin name b => exact ⟨_, _, .builtin⟩
  | library path library =>
    obtain ⟨result, log', loading⟩ := library.exists_loading path log
    exact ⟨_, _, .library loading⟩

namespace Registry

/-- Carries out a registration. -/
def enroll (r : Registry) (log : Log) : Registration → Except LoadError Unit × Registry × Log
  | .entry name e => (.ok (), r.insert name e, log)
  | .builtin name b => (.ok (), r.insertBuiltin name b, log)
  | .library path library =>
    let (answer, r, log) := r.insertLibrary path library log
    (answer.map fun _ => (), r, log)

/-- Carries out registrations one after the other, whatever they come to. -/
def enrollAll (r : Registry) (log : Log) : List Registration → Registry × Log
  | [] => (r, log)
  | registration :: rest =>
    let (_, r, log) := r.enroll log registration
    r.enrollAll log rest

/-- Registers what there is to register, if there is anything. -/
def receive (r : Registry) : Except LoadError (String × RegistryEntry) → Registry
  | .ok (name, e) => r.insert name e
  | .error _ => r

/-- Registers backends under names, one after the other. -/
def insertAll (r : Registry) (entries : List (String × RegistryEntry)) : Registry :=
  entries.foldl (fun r entry => r.insert entry.1 entry.2) r

variable {r : Registry} {log log' : Log} {path : String} {library : Library}

/-! ## Names -/

/-- What is registered under a name replaces what was, and touches no other name. -/
theorem get?_insert (r : Registry) (name name' : String) (e : RegistryEntry) :
    (r.insert name e).get? name' = if name = name' then some e else r.get? name' := by
  unfold insert get?
  rw [Std.TreeMap.getElem?_insert]
  simp only [Std.LawfulEqCmp.compare_eq_iff_eq]

theorem get?_insert_self (r : Registry) (name : String) (e : RegistryEntry) :
    (r.insert name e).get? name = some e := by
  rw [get?_insert, if_pos rfl]

theorem get?_insert_of_ne {name name' : String} (h : name' ≠ name) (r : Registry)
    (e : RegistryEntry) : (r.insert name e).get? name' = r.get? name' := by
  rw [get?_insert, if_neg h.symm]

theorem contains_eq (r : Registry) (name : String) : r.contains name = (r.get? name).isSome :=
  Std.TreeMap.contains_eq_isSome_getElem?

theorem get?_builtins_interpreter :
    builtins.get? Interpreter.name =
      some { kind := .builtin, constructor := .builtin Interpreter.backend } := by
  rw [builtins, insertBuiltin, insertBuiltin, get?_insert, get?_insert, if_neg (by decide),
    if_pos rfl]

theorem get?_builtins_fastPath :
    builtins.get? FastPath.name =
      some { kind := .builtin, constructor := .builtin FastPath.backend } := by
  rw [builtins, insertBuiltin, get?_insert, if_pos rfl]

/-- What is registered last under a name counts. -/
theorem get?_insertAll (r : Registry) (entries : List (String × RegistryEntry)) (name : String) :
    (r.insertAll entries).get? name = (entries.reverse.lookup name).or (r.get? name) := by
  induction entries generalizing r with
  | nil => rfl
  | cons entry rest ih =>
    obtain ⟨name', e⟩ := entry
    have hinsert : r.insertAll ((name', e) :: rest) = (r.insert name' e).insertAll rest := rfl
    rw [hinsert, ih, get?_insert, List.reverse_cons, List.lookup_append, Option.or_assoc]
    congr 1
    -- what is registered first stands last in the reversed list, right before the registry itself
    by_cases heq : name' = name
    · rw [if_pos heq, heq, List.lookup_cons_self]
      rfl
    · rw [if_neg heq, List.lookup_cons, beq_false_of_ne (Ne.symm heq), List.lookup_nil]
      rfl

theorem insertAll_append (r : Registry) (entries entries' : List (String × RegistryEntry)) :
    r.insertAll (entries ++ entries') = (r.insertAll entries).insertAll entries' :=
  List.foldl_append

/-- How a registry is listed: in the order of the names, and each name once. -/
structure Listed (r : Registry) : Prop where
  increasing : r.names.Pairwise (· < ·)
  mem_names : ∀ name, name ∈ r.names ↔ (r.get? name).isSome
  names_kinds : r.kinds.map (·.1) = r.names
  mem_kinds : ∀ name kind, (name, kind) ∈ r.kinds ↔ ∃ e, r.get? name = some e ∧ e.kind = kind

theorem mem_toList_iff {name : String} {e : RegistryEntry} :
    (name, e) ∈ r.toList ↔ r.get? name = some e :=
  Std.TreeMap.mem_toList_iff_getElem?_eq_some

/-- A registry is listed in the order of the names. -/
theorem listed (r : Registry) : r.Listed where
  increasing := by
    rw [names, toList, Std.TreeMap.map_fst_toList_eq_keys]
    exact r.entries.ordered_keys.imp fun h => compare_lt_iff_lt.mp h
  mem_names name := by
    rw [names, List.mem_map, Option.isSome_iff_exists]
    constructor
    · rintro ⟨⟨_, e⟩, hmem, rfl⟩
      exact ⟨e, mem_toList_iff.mp hmem⟩
    · rintro ⟨e, he⟩
      exact ⟨(name, e), mem_toList_iff.mpr he, rfl⟩
  names_kinds := by
    rw [kinds, names, List.map_map]
    rfl
  mem_kinds name kind := by
    rw [kinds, List.mem_map]
    constructor
    · rintro ⟨⟨_, e⟩, hmem, heq⟩
      obtain ⟨rfl, rfl⟩ := Prod.mk.inj heq
      exact ⟨e, mem_toList_iff.mp hmem, rfl⟩
    · rintro ⟨e, he, rfl⟩
      exact ⟨(name, e), mem_toList_iff.mpr he, rfl⟩

example : builtins.names = ["fastpath", "interpreter"] := by decide

/-- The names are those from before, and those of the backends that are registered. -/
theorem mem_names_insertAll {entries : List (String × RegistryEntry)} {name : String} :
    name ∈ (r.insertAll entries).names ↔ name ∈ r.names ∨ name ∈ entries.map (·.1) := by
  have hlookup : (entries.reverse.lookup name).isSome ↔ name ∈ entries.map (·.1) := by
    rw [List.lookup_isSome_iff, List.mem_map]
    constructor
    · rintro ⟨entry, hmem, heq⟩
      exact ⟨entry, List.mem_reverse.mp hmem, (beq_iff_eq.mp heq).symm⟩
    · rintro ⟨entry, hmem, rfl⟩
      exact ⟨entry, List.mem_reverse.mpr hmem, beq_self_eq_true _⟩
  rw [(r.insertAll entries).listed.mem_names, r.listed.mem_names, get?_insertAll, Option.isSome_or,
    Bool.or_eq_true, hlookup, or_comm]

/-! ## Histories -/

/-- A registry receives what loading the library comes to. -/
theorem insertLibrary_of_loading {result : Except LoadError (LoadedBackend × RegistryEntry)}
    (h : library.Loading path log result log') (r : Registry) :
    r.insertLibrary path library log =
      (result.map (·.1), r.receive (result.map fun found => (found.1.name, found.2)), log') := by
  cases h with
  | loaded first attempt =>
    simp only [insertLibrary, Library.exports_iff.mpr first, attempt.instantiate_eq]
    rfl
  | missing unexported =>
    simp only [insertLibrary, Library.findConstructor?_eq_none_iff.mpr unexported]
    rfl
  | unusable first attempt =>
    simp only [insertLibrary, Library.exports_iff.mpr first, attempt.instantiate_eq]
    rfl

theorem enroll_of_runs {registration : Registration}
    {result : Except LoadError (String × RegistryEntry)} (h : registration.Runs log result log')
    (r : Registry) :
    r.enroll log registration = (result.map fun _ => (), r.receive result, log') := by
  cases h with
  | entry => rfl
  | builtin => rfl
  | @library _ _ result _ loading =>
    simp only [enroll, insertLibrary_of_loading loading]
    cases result <;> rfl

/-- A registration that fails changes nothing. -/
theorem enroll_of_error {registration : Registration} {e : LoadError}
    (h : (r.enroll log registration).1 = .error e) : (r.enroll log registration).2.1 = r := by
  obtain ⟨result, log', runs⟩ := registration.exists_runs log
  rw [enroll_of_runs runs] at h ⊢
  cases result with
  | ok entry => cases h
  | error e' => rfl

/-- After a history of registrations there is what was there before, overlaid by what the successful
ones have registered. -/
theorem enrollAll_eq (r : Registry) (log : Log) (history : List Registration) :
    ∃ entries log', Registration.Enters log history entries log' ∧
      r.enrollAll log history = (r.insertAll entries, log') := by
  induction history generalizing r log with
  | nil => exact ⟨[], log, .nil, rfl⟩
  | cons registration rest ih =>
    obtain ⟨result, log₁, runs⟩ := registration.exists_runs log
    obtain ⟨entries, log₂, enters, hrest⟩ := ih (r.receive result) log₁
    rw [enrollAll, enroll_of_runs runs]
    cases result with
    | ok entry => exact ⟨entry :: entries, log₂, .success runs enters, hrest⟩
    | error e => exact ⟨entries, log₂, .failure runs enters, hrest⟩

/-- How the backend of a library is registered. -/
structure RegistersLibrary (r : Registry) (path : String) (library : Library) (log : Log) :
    Prop where
  ok_iff : (∃ loaded, (r.insertLibrary path library log).1 = .ok loaded) ↔
    ∃ symbol exported table, library.Exports path symbol exported ∧
      exported.make (log.nextId exported.origin).serial = some table ∧ table.abiVersion = 1
  /-- It is registered under the name that it gives itself, and is made by that constructor from
  then on. -/
  registered : ∀ loaded, (r.insertLibrary path library log).1 = .ok loaded →
    ∃ exported table e, library.Exports path loaded.symbol exported ∧
      exported.make (log.nextId exported.origin).serial = some table ∧
      loaded.name = table.name.getD "" ∧
      (r.insertLibrary path library log).2.1.get? loaded.name = some e ∧
      e.kind = .dynamic path loaded.symbol ∧
      (∀ later answer later', e.constructor.instantiate later = (answer, later') ↔
        exported.Attempt later answer later') ∧
      ∀ name, name ≠ loaded.name →
        (r.insertLibrary path library log).2.1.get? name = r.get? name
  missing_iff :
    (r.insertLibrary path library log).1 =
        .error (.missingSymbol path (Library.candidateSymbols path)) ↔
      ∀ symbol ∈ Library.candidateSymbols path, library.constructor? symbol = none
  /-- Only the constructor that counts is asked, whatever is exported under other symbols. -/
  abi_iff : ∀ cause, (r.insertLibrary path library log).1 = .error (.abi path cause) ↔
    ∃ symbol exported, library.Exports path symbol exported ∧
      Plugin.Unusable (exported.make (log.nextId exported.origin).serial) cause
  failed : ∀ e, (r.insertLibrary path library log).1 = .error e →
    e.path = path ∧ (r.insertLibrary path library log).2.1 = r

/-- A library that is registered has a constructor, whose table has the right version. -/
theorem of_insertLibrary_eq_ok {loaded : LoadedBackend}
    (h : (r.insertLibrary path library log).1 = .ok loaded) :
    ∃ exported table, library.Exports path loaded.symbol exported ∧
      exported.make (log.nextId exported.origin).serial = some table ∧ table.abiVersion = 1 ∧
      loaded.name = table.name.getD "" ∧
      (r.insertLibrary path library log).2.1 =
        r.insert loaded.name
          { kind := .dynamic path loaded.symbol, constructor := .ofPlugin exported } := by
  obtain ⟨result, log', loading⟩ := library.exists_loading path log
  rw [insertLibrary_of_loading loading] at h ⊢
  cases loading with
  | loaded first attempt =>
    cases attempt with
    | made made version =>
      obtain rfl := Except.ok.inj h
      exact ⟨_, _, first, made, version, rfl, rfl⟩
  | missing unexported => cases h
  | unusable first attempt => cases h

/-- A library that is not registered has no constructor, or one that makes nothing usable, and the
registry stays as it is. -/
theorem of_insertLibrary_eq_error {e : LoadError}
    (h : (r.insertLibrary path library log).1 = .error e) :
    ((e = .missingSymbol path (Library.candidateSymbols path) ∧
        ∀ symbol ∈ Library.candidateSymbols path, library.constructor? symbol = none) ∨
      ∃ symbol exported cause, e = .abi path cause ∧ library.Exports path symbol exported ∧
        Plugin.Unusable (exported.make (log.nextId exported.origin).serial) cause) ∧
      (r.insertLibrary path library log).2.1 = r := by
  obtain ⟨result, log', loading⟩ := library.exists_loading path log
  rw [insertLibrary_of_loading loading] at h ⊢
  cases loading with
  | loaded first attempt => cases h
  | missing unexported =>
    obtain rfl := Except.error.inj h
    exact ⟨.inl ⟨rfl, unexported⟩, rfl⟩
  | unusable first attempt =>
    cases attempt with
    | refused made =>
      obtain rfl := Except.error.inj h
      exact ⟨.inr ⟨_, _, _, rfl, first, made⟩, rfl⟩

/-- The backend of every library is registered as `RegistersLibrary` says. -/
theorem registersLibrary (r : Registry) (path : String) (library : Library) (log : Log) :
    r.RegistersLibrary path library log where
  ok_iff := by
    constructor
    · rintro ⟨loaded, h⟩
      obtain ⟨exported, table, first, made, version, -, -⟩ := of_insertLibrary_eq_ok h
      exact ⟨_, exported, table, first, made, version⟩
    · rintro ⟨symbol, exported, table, first, made, version⟩
      rw [insertLibrary_of_loading (.loaded first (.made made version))]
      exact ⟨_, rfl⟩
  registered loaded h := by
    obtain ⟨exported, table, first, made, -, hname, hregistry⟩ := of_insertLibrary_eq_ok h
    rw [hregistry]
    exact ⟨exported, table, _, first, made, hname, get?_insert_self .., rfl,
      fun _ _ _ => PluginConstructor.instantiate_iff, fun name hne => get?_insert_of_ne hne ..⟩
  missing_iff := by
    constructor
    · intro h
      rcases (of_insertLibrary_eq_error h).1 with ⟨-, unexported⟩ | ⟨_, _, _, heq, -⟩
      · exact unexported
      · cases heq
    · intro unexported
      rw [insertLibrary_of_loading (.missing unexported)]
      rfl
  abi_iff cause := by
    constructor
    · intro h
      rcases (of_insertLibrary_eq_error h).1 with ⟨heq, -⟩ | ⟨symbol, exported, _, heq, rest⟩
      · cases heq
      · obtain ⟨-, rfl⟩ := LoadError.abi.inj heq
        exact ⟨symbol, exported, rest⟩
    · rintro ⟨symbol, exported, first, made⟩
      rw [insertLibrary_of_loading (.unusable first (.refused made))]
      rfl
  failed e h := by
    obtain ⟨hcases, hregistry⟩ := of_insertLibrary_eq_error h
    rcases hcases with ⟨rfl, -⟩ | ⟨_, _, _, rfl, -⟩ <;> exact ⟨rfl, hregistry⟩

/-- The contents of a registry after any registrations, and what any further one does. -/
theorem enrollAll_contents (r : Registry) (log : Log) (history : List Registration) :
    let final := (r.enrollAll log history).1
    final.Listed ∧
    (∃ entries, Registration.Enters log history entries (r.enrollAll log history).2 ∧
      ∀ name, final.get? name = (entries.reverse.lookup name).or (r.get? name)) ∧
    (∀ now next e, (final.enroll now next).1 = .error e → (final.enroll now next).2.1 = final) ∧
    ∀ now path library, final.RegistersLibrary path library now := by
  intro final
  obtain ⟨entries, log', enters, heq⟩ := enrollAll_eq r log history
  have hlog : (r.enrollAll log history).2 = log' := congrArg Prod.snd heq
  have hfinal : final = r.insertAll entries := congrArg Prod.fst heq
  refine ⟨final.listed, ⟨entries, hlog ▸ enters, fun name => ?_⟩, fun _ _ _ => enroll_of_error,
    fun now path library => final.registersLibrary path library now⟩
  rw [hfinal, get?_insertAll]

end Registry

end EvmDispatch
