import EvmDispatch.Command.Configure
import EvmDispatch.Proofs.Host.Configuration
import Mathlib.Data.List.Forall2

/-!
# Configurations in layers

A configuration file and a command ask for the same kinds of things: libraries, options, a default
and tracing. Either is a `Layer` on top of a configuration, and `Layer.Fits` says when a layer can
be applied and `Layer.Tops` what that comes to (`Layer.Fits.applies`, `Layer.Applies.fits`). A
command configures the host by the layer of its file and then by its own
(`Command.configure_layers`).
-/

namespace EvmDispatch

/-- What is asked for on top of a configuration. -/
structure Layer where
  loads : List String := []
  options : List String := []
  vm : Option String := none
  trace : Bool := false

/-- The layer of a configuration file. -/
def ConfigFile.layer (file : ConfigFile) : Layer where
  loads := file.load.map file.resolve
  options := file.options
  vm := file.vm
  trace := file.trace

/-- The layer of a command. -/
def Command.HostRequest.layer (request : HostRequest) : Layer where
  loads := request.loads
  options := request.options
  vm := request.vm
  trace := request.trace

/-- The libraries of a layer can be loaded, its options have equals signs, and its default has been
registered before or is registered by one of the libraries. -/
structure Layer.Fits (layer : Layer) (surroundings : Surroundings) (r : Registry) (log : Log)
    (entries : List (String × RegistryEntry)) (log' : Log) : Prop where
  loads : surroundings.LoadsAll log layer.loads entries (.ok ()) log'
  options : ∀ text ∈ layer.options, '=' ∈ text.toList
  vm : ∀ vm, layer.vm = some vm → vm ∈ r.names ∨ vm ∈ entries.map (·.1)

/-- A configuration with a layer on top. -/
structure Layer.Tops (layer : Layer) (c : HostConfig) (entries : List (String × RegistryEntry))
    (c' : HostConfig) : Prop where
  registry : c'.registry = c.registry.insertAll entries
  options : ∃ options, c'.options = c.options ++ options ∧
    List.Forall₂ VmOption.Splits layer.options options
  default : c'.default = layer.vm.getD c.default
  trace : c'.trace = (c.trace || layer.trace)

/-- The steps that apply a layer succeed one after the other. -/
def Layer.Applies (layer : Layer) (surroundings : Surroundings) (c : HostConfig) (log : Log)
    (c' : HostConfig) (log' : Log) : Prop :=
  ∃ c₁ c₂, c.loadAll surroundings log layer.loads = (.ok (), c₁, log') ∧
    c₁.parseOptions layer.options = (.ok (), c₂) ∧ c₂.choose layer.vm layer.trace = .ok c'

namespace Layer

variable {layer : Layer} {surroundings : Surroundings} {c c' : HostConfig} {log log' : Log}
  {entries : List (String × RegistryEntry)}

/-- A layer that fits can be applied, and is on top of the configuration then. -/
theorem Fits.applies (h : layer.Fits surroundings c.registry log entries log') :
    ∃ c', layer.Applies surroundings c log c' log' ∧ layer.Tops c entries c' := by
  let c₁ : HostConfig := { c with registry := c.registry.insertAll entries }
  obtain ⟨options, hadded, hanswer, hsplit⟩ := c₁.parseOptions_eq layer.options
  have hparse : c₁.parseOptions layer.options =
      (.ok (), { c₁ with options := c₁.options ++ options }) :=
    Prod.ext (hanswer.mpr h.options) hadded
  have hvm : ∀ vm, layer.vm = some vm → (c₁.registry.get? vm).isSome := by
    intro vm hvm
    exact (c₁.registry.listed.mem_names vm).mp (Registry.mem_names_insertAll.mpr (h.vm vm hvm))
  have applies : layer.Applies surroundings c log _ log' :=
    ⟨c₁, _, HostConfig.loadAll_of_loads h.loads c, hparse,
      HostConfig.choose_eq_ok_iff.mpr ⟨hvm, rfl⟩⟩
  exact ⟨_, applies, ⟨rfl, ⟨options, rfl, hsplit (hanswer.mpr h.options)⟩, rfl, rfl⟩⟩

/-- A layer that can be applied fits. -/
theorem Applies.fits (h : layer.Applies surroundings c log c' log') :
    ∃ entries, layer.Fits surroundings c.registry log entries log' ∧ layer.Tops c entries c' := by
  obtain ⟨c₁, c₂, hload, hparse, hchoose⟩ := h
  obtain ⟨entries, answer, log₁, loads⟩ := surroundings.exists_loadsAll log layer.loads
  rw [HostConfig.loadAll_of_loads loads] at hload
  cases hload
  obtain ⟨options, hadded, hanswer, hsplit⟩ :=
    HostConfig.parseOptions_eq { c with registry := c.registry.insertAll entries } layer.options
  rw [hparse] at hadded hanswer hsplit
  obtain rfl : c₂ = _ := hadded
  obtain ⟨hvm, rfl⟩ := HostConfig.choose_eq_ok_iff.mp hchoose
  refine ⟨entries, ⟨loads, hanswer.mp rfl, fun vm h => ?_⟩,
    ⟨rfl, ⟨options, rfl, hsplit rfl⟩, rfl, rfl⟩⟩
  exact Registry.mem_names_insertAll.mp
    (((c.registry.insertAll entries).listed.mem_names vm).mpr (hvm vm h))

end Layer

/-- A configuration file is applied as its layer. -/
theorem ConfigFile.apply_eq_ok_iff {file : ConfigFile} {surroundings : Surroundings}
    {c c' : HostConfig} {log log' : Log} :
    file.apply surroundings c log = (.ok (), c', log') ↔
      file.layer.Applies surroundings c log c' log' := by
  constructor
  · intro h
    unfold apply at h
    split at h
    · cases h
    · rename_i c₁ _ hload
      split at h
      · cases h
      · rename_i c₂ hparse
        split at h
        · cases h
        · rename_i hchoose
          cases h
          exact ⟨c₁, c₂, hload, hparse, hchoose⟩
  · rintro ⟨c₁, c₂, hload, hparse, hchoose⟩
    simp only [layer] at hload hparse hchoose
    simp only [apply, hload, hparse, hchoose]

namespace Command

variable {surroundings : Surroundings} {request : HostRequest} {c c' : HostConfig} {log log' : Log}

/-- What a command finds in its configuration file. Without a file it goes on as after an empty
one. -/
inductive Finds (surroundings : Surroundings) : Option String → ConfigFile → Prop where
  | absent : Finds surroundings none {}
  | present {path text : String} {content : ConfigFile}
    (readable : surroundings.readText path = .ok text)
    (parses : surroundings.parseConfig text = some content) :
    Finds surroundings (some path) { content with directory := Path.parent? path }

theorem finds_of_read {path : String} {file : ConfigFile} :
    ConfigFile.read surroundings path = .ok file ↔ Finds surroundings (some path) file := by
  constructor
  · intro h
    unfold ConfigFile.read at h
    split at h
    · cases h
    · rename_i readable
      split at h
      · rename_i parses
        obtain rfl := Except.ok.inj h
        exact .present readable parses
      · cases h
  · intro h
    cases h with
    | present readable parses => simp only [ConfigFile.read, readable, parses]

/-- The layer of an empty file changes nothing. -/
theorem applies_empty_iff :
    ({} : ConfigFile).layer.Applies surroundings c log c' log' ↔ c' = c ∧ log' = log := by
  constructor
  · rintro ⟨c₁, c₂, hload, hparse, hchoose⟩
    cases hload
    cases hparse
    cases hchoose
    exact ⟨rfl, rfl⟩
  · rintro ⟨rfl, rfl⟩
    exact ⟨c', c', rfl, rfl, rfl⟩

/-- A command starts with the layer of its file on top of the initial configuration. -/
theorem startingConfig_eq_ok_iff {path : Option String} :
    startingConfig surroundings path log = (.ok c, log') ↔
      ∃ file, Finds surroundings path file ∧ file.layer.Applies surroundings {} log c log' := by
  cases path with
  | none =>
    constructor
    · intro h
      cases h
      exact ⟨{}, .absent, applies_empty_iff.mpr ⟨rfl, rfl⟩⟩
    · rintro ⟨file, finds, applies⟩
      cases finds
      obtain ⟨rfl, rfl⟩ := applies_empty_iff.mp applies
      rfl
  | some path =>
    constructor
    · intro h
      simp only [startingConfig] at h
      split at h
      · cases h
      · rename_i file hread
        split at h
        · cases h
        · rename_i happly
          cases h
          exact ⟨file, finds_of_read.mp hread, ConfigFile.apply_eq_ok_iff.mp happly⟩
    · rintro ⟨file, finds, applies⟩
      simp only [startingConfig, finds_of_read.mpr finds, ConfigFile.apply_eq_ok_iff.mpr applies]

/-- A command is applied as its layer on top of that of its file. -/
theorem configure_eq_ok_iff :
    configure surroundings request log = (.ok c', log') ↔
      ∃ file c log₁, Finds surroundings request.config file ∧
        file.layer.Applies surroundings {} log c log₁ ∧
        request.layer.Applies surroundings c log₁ c' log' := by
  constructor
  · intro h
    unfold configure at h
    split at h
    · cases h
    · rename_i c log₁ hstart
      obtain ⟨file, finds, applies⟩ := startingConfig_eq_ok_iff.mp hstart
      refine ⟨file, c, log₁, finds, applies, ?_⟩
      split at h
      · cases h
      · rename_i c₁ _ hload
        split at h
        · cases h
        · rename_i c₂ hparse
          split at h
          · cases h
          · rename_i hchoose
            cases h
            exact ⟨c₁, c₂, hload, hparse, hchoose⟩
  · rintro ⟨file, c, log₁, finds, applies, c₁, c₂, hload, hparse, hchoose⟩
    have hstart := startingConfig_eq_ok_iff.mpr ⟨file, finds, applies⟩
    simp only [HostRequest.layer] at hload hparse hchoose
    simp only [configure, hstart, hload, hparse, hchoose]

/-- What it takes to configure the host as a command asks: what its file holds, and which backends
the libraries of the file and those of the command report. -/
structure Configurable (surroundings : Surroundings) (request : HostRequest) (log : Log)
    (file : ConfigFile) (fileEntries entries : List (String × RegistryEntry)) : Prop where
  finds : Finds surroundings request.config file
  loads : ∃ log₁ log₂,
    surroundings.LoadsAll log (file.load.map file.resolve) fileEntries (.ok ()) log₁ ∧
      surroundings.LoadsAll log₁ request.loads entries (.ok ()) log₂
  fileOptions : ∀ text ∈ file.options, '=' ∈ text.toList
  options : ∀ text ∈ request.options, '=' ∈ text.toList
  fileVm : ∀ vm, file.vm = some vm →
    vm ∈ Registry.builtins.names ∨ vm ∈ fileEntries.map (·.1)
  vm : ∀ vm, request.vm = some vm →
    vm ∈ Registry.builtins.names ∨ vm ∈ (fileEntries ++ entries).map (·.1)

/-- The host can be configured if the two layers fit one on top of the other. -/
theorem configurable_iff {file : ConfigFile} {fileEntries entries : List (String × RegistryEntry)} :
    Configurable surroundings request log file fileEntries entries ↔
      Finds surroundings request.config file ∧ ∃ log₁ log₂,
        file.layer.Fits surroundings .builtins log fileEntries log₁ ∧
        request.layer.Fits surroundings (Registry.builtins.insertAll fileEntries) log₁ entries
          log₂ := by
  have hvm : ∀ vm, vm ∈ (Registry.builtins.insertAll fileEntries).names ∨ vm ∈ entries.map (·.1) ↔
      vm ∈ Registry.builtins.names ∨ vm ∈ (fileEntries ++ entries).map (·.1) := by
    intro vm
    rw [Registry.mem_names_insertAll, List.map_append, List.mem_append, or_assoc]
  constructor
  · intro h
    obtain ⟨log₁, log₂, fileLoads, loads⟩ := h.loads
    exact ⟨h.finds, log₁, log₂, ⟨fileLoads, h.fileOptions, h.fileVm⟩,
      ⟨loads, h.options, fun vm heq => (hvm vm).mpr (h.vm vm heq)⟩⟩
  · rintro ⟨finds, log₁, log₂, fileFits, fits⟩
    exact ⟨finds, ⟨log₁, log₂, fileFits.loads, fits.loads⟩, fileFits.options, fits.options,
      fileFits.vm, fun vm heq => (hvm vm).mp (fits.vm vm heq)⟩

/-- The host is configured as a command asks if and only if nothing is wrong with what its file or
the command itself says. Options add up, the default of the command counts before that of the file,
either may switch tracing on, and the backends of the libraries are registered on top of those of
this library, where the last one of a name counts. All this holds however the texts of
configuration files are read. -/
theorem configure_layers (surroundings : Surroundings) (request : HostRequest) (log : Log) :
    ((∃ c, (configure surroundings request log).1 = .ok c) ↔
      ∃ file fileEntries entries,
        Configurable surroundings request log file fileEntries entries) ∧
    ∀ c, (configure surroundings request log).1 = .ok c →
      ∃ file fileEntries entries,
        Configurable surroundings request log file fileEntries entries ∧
        List.Forall₂ VmOption.Splits (file.options ++ request.options) c.options ∧
        c.default = (request.vm.or file.vm).getD "interpreter" ∧
        c.trace = (file.trace || request.trace) ∧
        ∀ name, c.registry.get? name =
          ((fileEntries ++ entries).reverse.lookup name).or (Registry.builtins.get? name) := by
  have outcome : ∀ c, (configure surroundings request log).1 = .ok c →
      ∃ file fileEntries entries c₀,
        Configurable surroundings request log file fileEntries entries ∧
        file.layer.Tops {} fileEntries c₀ ∧ request.layer.Tops c₀ entries c := by
    intro c hok
    obtain ⟨file, c₀, log₁, finds, fileApplies, applies⟩ :=
      configure_eq_ok_iff.mp (Prod.ext hok rfl)
    -- the second layer is judged by the registry that the first one leaves
    obtain ⟨fileEntries, fileFits, fileTops⟩ := fileApplies.fits
    obtain ⟨entries, fits, tops⟩ := applies.fits
    rw [fileTops.registry] at fits
    exact ⟨file, fileEntries, entries, c₀,
      configurable_iff.mpr ⟨finds, log₁, _, fileFits, fits⟩, fileTops, tops⟩
  refine ⟨⟨?_, ?_⟩, ?_⟩
  · rintro ⟨c, hok⟩
    obtain ⟨file, fileEntries, entries, _, configurable, -, -⟩ := outcome c hok
    exact ⟨file, fileEntries, entries, configurable⟩
  · rintro ⟨file, fileEntries, entries, configurable⟩
    obtain ⟨finds, log₁, log₂, fileFits, fits⟩ := configurable_iff.mp configurable
    obtain ⟨c₀, fileApplies, fileTops⟩ := Layer.Fits.applies (c := {}) fileFits
    have hregistry : c₀.registry = Registry.builtins.insertAll fileEntries := fileTops.registry
    rw [← hregistry] at fits
    obtain ⟨c, applies, -⟩ := fits.applies
    exact ⟨c, congrArg Prod.fst
      (configure_eq_ok_iff.mpr ⟨file, c₀, log₁, finds, fileApplies, applies⟩)⟩
  · intro c hok
    obtain ⟨file, fileEntries, entries, c₀, configurable, fileTops, tops⟩ := outcome c hok
    obtain ⟨fileOptions, hfileOptions, fileSplit⟩ := fileTops.options
    obtain ⟨options, hoptions, split⟩ := tops.options
    refine ⟨file, fileEntries, entries, configurable, ?_, ?_, ?_, fun name => ?_⟩
    · rw [hoptions, hfileOptions]
      exact List.rel_append fileSplit split
    · rw [tops.default, fileTops.default, Option.getD_or]
      rfl
    · rw [tops.trace, fileTops.trace]
      exact congrArg (· || request.trace) (Bool.false_or file.trace)
    · rw [tops.registry, fileTops.registry, ← Registry.insertAll_append, Registry.get?_insertAll]

end Command

end EvmDispatch
