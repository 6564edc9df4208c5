import EvmDispatch.Proofs.Vm.Dispatch
import Mathlib.Data.Multiset.MapFold
import Mathlib.Logic.Relation

/-!
# The life of an instance

An instance is made for a purpose, and the purpose decides which events it may see. One that is made
to learn the name of a backend is released at once. One that is made for a virtual machine is set
up, serves calls and is released. One that is made to relieve another instance is set up, serves one
call and is released. `Life` lists the ways in which a life can go once it is over, `Service` those
in which that of an instance at work can have gone so far.

What has happened to instances and the virtual machines around them form a fleet. It changes by
episodes: a whole life passes, an instance is commissioned for a virtual machine, called there, or
released. An episode leaves all instances alone but one (`Episode.progress`), so that after any
number of them each instance is accounted for by the purpose it was made for (`Progress`).
-/

namespace EvmDispatch

/-- The instance that an event is about. -/
def Event.instance? : Event → Option InstanceId
  | created id => some id
  | refused id _ => some id
  | configured id _ _ => some id
  | executed id _ _ _ => some id
  | released id => some id
  | notice _ _ => none
  | line _ => none

/-- What an instance is made for. -/
inductive Purpose where
  /-- To learn the name and the version of its backend. -/
  | probe
  /-- To serve a virtual machine that has a fallback, or none. -/
  | serve (options : List VmOption) (fallback : Option Fallback)
  /-- To serve one call that another instance has declined. -/
  | relieve (options : List VmOption)

/-- The events of an instance that serves, and the state in which it is after them. -/
inductive Service (b : Backend) (id : InstanceId) (options : List VmOption) :
    List Event → b.State → Prop where
  | start : Service b id options (.created id :: b.configurations id options)
      (b.configure b.start options)
  | call {events : List Event} {s : b.State} (r : Revision) (message : Message) (observed : Bool)
    (before : Service b id options events s) :
    Service b id options (events ++ [.executed id r message observed])
      (b.execute s r message observed).2

/-- The events of an instance whose life is over. What a constructor has not made is never used, and
everything else is released in the end. -/
inductive Life (c : Constructor) (id : InstanceId) : Purpose → List Event → Prop where
  | refused {purpose : Purpose} {e : Plugin.AbiError} (make : c.make id.serial = .error e) :
    Life c id purpose [.refused id e]
  | probe {b : Backend} (make : c.make id.serial = .ok b) :
    Life c id .probe [.created id, .released id]
  | serve {b : Backend} {options : List VmOption} {fallback : Option Fallback}
    {events : List Event} {s : b.State} (make : c.make id.serial = .ok b)
    (service : Service b id options events s) :
    Life c id (.serve options fallback) (events ++ [.released id])
  | relieve {b : Backend} {options : List VmOption} (make : c.make id.serial = .ok b)
    (r : Revision) (message : Message) (observed : Bool) :
    Life c id (.relieve options)
      (.created id ::
        (b.configurations id options ++ [.executed id r message observed, .released id]))

/-- The events of one instance among some events. -/
def Log.historyIn (id : InstanceId) (events : List Event) : List Event :=
  events.filter (·.instance? == some id)

/-- The identity of the next instance of a constructor after some events. -/
def Log.nextIdAfter (origin : Origin) (events : List Event) : InstanceId :=
  ⟨origin, Log.attemptsIn origin events⟩

/-- What has happened to instances, and the virtual machines there are. -/
structure Fleet where
  /-- The events of instances, oldest first. -/
  events : List Event
  /-- The virtual machines. -/
  vms : Multiset Vm

namespace Fleet

/-- The events of one instance, oldest first. -/
def historyOf (F : Fleet) (id : InstanceId) : List Event := Log.historyIn id F.events

/-- How an instance has fared that was made by a constructor for a purpose. Either its life is over,
or it is the instance of a virtual machine with the fallback that the purpose says, and nobody but
this virtual machine has ever changed its state. -/
inductive Accounts (F : Fleet) (id : InstanceId) (c : Constructor) : Purpose → Prop where
  | ended {purpose : Purpose} (life : Life c id purpose (F.historyOf id))
    (gone : ∀ vm ∈ F.vms, vm.engine.id ≠ id) : Accounts F id c purpose
  | atWork {vm : Vm} {options : List VmOption} {fallback : Option Fallback} (held : vm ∈ F.vms)
    (same : vm.engine.id = id) (given : vm.fallback = fallback)
    (make : c.make id.serial = .ok vm.engine.backend)
    (service : Service vm.engine.backend id options (F.historyOf id) vm.engine.state) :
    Accounts F id c (.serve options fallback)

/-- No instance has an identity that is still to be given, and no two virtual machines share one. -/
structure Sound (F : Fleet) : Prop where
  numbered : ∀ id, F.historyOf id ≠ [] → id.serial < Log.attemptsIn id.origin F.events
  recorded : ∀ vm ∈ F.vms, F.historyOf vm.engine.id ≠ []
  distinct : (F.vms.map fun vm => vm.engine.id).Nodup

/-- What can happen to a fleet at a time, if constructors are called for the purposes of `K`. -/
inductive Episode (K : Constructor → Purpose → Prop) : Fleet → Fleet → Prop where
  | pass {events new : List Event} {vms : Multiset Vm} {c : Constructor} {purpose : Purpose}
    (asked : K c purpose)
    (life : Life c (Log.nextIdAfter c.origin events) purpose new) :
    Episode K ⟨events, vms⟩ ⟨events ++ new, vms⟩
  | commission {events : List Event} {vms : Multiset Vm} {c : Constructor} {b : Backend}
    {options : List VmOption} {fallback : Option Fallback} (tracing : Bool) (id : InstanceId)
    (asked : K c (.serve options fallback))
    (next : id = Log.nextIdAfter c.origin events) (make : c.make id.serial = .ok b) :
    Episode K ⟨events, vms⟩
      ⟨events ++ .created id :: b.configurations id options,
        { engine := { id, backend := b, state := b.configure b.start options }
          fallback, tracing } ::ₘ vms⟩
  | call {events : List Event} {vm : Vm} {vms : Multiset Vm} (r : Revision) (message : Message)
    (observed : Bool) :
    Episode K ⟨events, vm ::ₘ vms⟩
      ⟨events ++ [vm.callEvent r message observed], vm.afterCall r message observed ::ₘ vms⟩
  | release {events : List Event} {vm : Vm} {vms : Multiset Vm} :
    Episode K ⟨events, vm ::ₘ vms⟩ ⟨events ++ [.released vm.engine.id], vms⟩

/-- An episode of one instance: what it adds is about that instance, and the virtual machines around
others stay. -/
structure Touches (id : InstanceId) (new : List Event) (F F' : Fleet) : Prop where
  events : F'.events = F.events ++ new
  concerns : ∀ e ∈ new, e.instance? = some id
  others : ∀ vm : Vm, vm.engine.id ≠ id → (vm ∈ F'.vms ↔ vm ∈ F.vms)

/-- What holds between a fleet and a later one. Those that were accounted for still are, and so are
those that have come since. -/
structure Progress (K : Constructor → Purpose → Prop) (F F' : Fleet) : Prop where
  sound : F'.Sound
  accounts : ∀ id c purpose, F.Accounts id c purpose → F'.Accounts id c purpose
  newcomers : ∀ id, F.historyOf id = [] → F'.historyOf id ≠ [] →
    ∃ c purpose, K c purpose ∧ c.origin = id.origin ∧ F'.Accounts id c purpose

end Fleet

/-! ## Histories -/

theorem Log.historyIn_append (id : InstanceId) (events new : List Event) :
    historyIn id (events ++ new) = historyIn id events ++ historyIn id new :=
  List.filter_append events new

theorem Log.historyIn_self {id : InstanceId} {new : List Event}
    (concerns : ∀ e ∈ new, e.instance? = some id) : historyIn id new = new :=
  List.filter_eq_self.mpr fun e he => beq_iff_eq.mpr (concerns e he)

/-- Events of one instance are not in the history of another. -/
theorem Log.historyIn_other {id id' : InstanceId} {new : List Event}
    (concerns : ∀ e ∈ new, e.instance? = some id) (ne : id' ≠ id) : historyIn id' new = [] := by
  refine List.filter_eq_nil_iff.mpr fun e he h => ne ?_
  rw [concerns e he] at h
  exact (Option.some.inj (beq_iff_eq.mp h)).symm

theorem Log.attemptsIn_append (origin : Origin) (events new : List Event) :
    attemptsIn origin (events ++ new) = attemptsIn origin events + attemptsIn origin new :=
  List.countP_append

/-- The attempt to make an instance is counted for its constructor. -/
theorem Log.attemptsIn_pos {id : InstanceId} {new : List Event}
    (attempt : ∃ e ∈ new, e.attempt? = some id) : 0 < attemptsIn id.origin new := by
  obtain ⟨e, he, hattempt⟩ := attempt
  refine List.countP_pos_iff.mpr ⟨e, he, ?_⟩
  rw [hattempt]
  exact beq_self_eq_true id.origin

theorem Backend.instance?_of_mem_configurations {b : Backend} {id : InstanceId}
    {options : List VmOption} {e : Event} (h : e ∈ b.configurations id options) :
    e.instance? = some id := by
  obtain ⟨o, -, rfl⟩ := List.mem_map.mp h
  rfl

namespace Service

variable {b : Backend} {id : InstanceId} {options : List VmOption} {events : List Event}
  {s : b.State}

theorem concerns (h : Service b id options events s) : ∀ e ∈ events, e.instance? = some id := by
  induction h with
  | start =>
    intro e he
    rcases List.mem_cons.mp he with rfl | he
    · rfl
    · exact Backend.instance?_of_mem_configurations he
  | call r message observed before ih =>
    intro e he
    rcases List.mem_append.mp he with he | he
    · exact ih e he
    · rw [List.mem_singleton.mp he]
      rfl

theorem created_mem (h : Service b id options events s) : .created id ∈ events := by
  induction h with
  | start => exact List.mem_cons_self
  | call r message observed before ih => exact List.mem_append_left _ ih

end Service

namespace Life

variable {c : Constructor} {id : InstanceId} {purpose : Purpose} {events : List Event}

/-- All events of a life are about the one instance. -/
theorem concerns (h : Life c id purpose events) : ∀ e ∈ events, e.instance? = some id := by
  intro e he
  cases h with
  | refused make =>
    rw [List.mem_singleton.mp he]
    rfl
  | probe make =>
    rcases List.mem_pair.mp he with rfl | rfl <;> rfl
  | serve make service =>
    rcases List.mem_append.mp he with he | he
    · exact service.concerns e he
    · rw [List.mem_singleton.mp he]
      rfl
  | relieve make r message observed =>
    rcases List.mem_cons.mp he with rfl | he
    · rfl
    · rcases List.mem_append.mp he with he | he
      · exact Backend.instance?_of_mem_configurations he
      · rcases List.mem_pair.mp he with rfl | rfl <;> rfl

/-- In every life there is the attempt to make the instance. -/
theorem attempt (h : Life c id purpose events) : ∃ e ∈ events, e.attempt? = some id := by
  cases h with
  | refused make => exact ⟨_, List.mem_cons_self, rfl⟩
  | probe make => exact ⟨_, List.mem_cons_self, rfl⟩
  | serve make service => exact ⟨_, List.mem_append_left _ service.created_mem, rfl⟩
  | relieve make r message observed => exact ⟨_, List.mem_cons_self, rfl⟩

end Life

namespace Fleet

variable {K : Constructor → Purpose → Prop} {F F' F'' : Fleet} {id id' : InstanceId}
  {new events : List Event} {vms : Multiset Vm} {vm vm' : Vm} {c : Constructor} {purpose : Purpose}

/-! ## What an episode leaves alone -/

/-- An episode adds nothing to the history of another instance. -/
theorem Touches.historyOf_other (h : Touches id new F F') (ne : id' ≠ id) :
    F'.historyOf id' = F.historyOf id' := by
  rw [historyOf, h.events, Log.historyIn_append, Log.historyIn_other h.concerns ne,
    List.append_nil, historyOf]

theorem Touches.historyOf_self (h : Touches id new F F') :
    F'.historyOf id = F.historyOf id ++ new := by
  rw [historyOf, h.events, Log.historyIn_append, Log.historyIn_self h.concerns, historyOf]

/-- An episode leaves other instances accounted for. -/
theorem Touches.accounts_other (h : Touches id new F F') (ne : id' ≠ id)
    (hF : F.Accounts id' c purpose) : F'.Accounts id' c purpose := by
  -- neither the history nor the virtual machine of another instance has changed
  cases hF with
  | ended life gone =>
    refine .ended (h.historyOf_other ne ▸ life) fun vm hvm hid => ?_
    have hvm : vm ∈ F.vms := (h.others vm (hid ▸ ne)).mp hvm
    exact gone vm hvm hid
  | atWork held same given make service =>
    have held' := (h.others _ (same ▸ ne)).mpr held
    exact .atWork held' same given make (h.historyOf_other ne ▸ service)

/-- The instance that an episode touches bears a number that has been given. -/
theorem Touches.sound (h : Touches id new F F') (hF : F.Sound)
    (numbered : id.serial < Log.attemptsIn id.origin F'.events)
    (recorded : F'.historyOf id ≠ []) (distinct : (F'.vms.map fun vm => vm.engine.id).Nodup) :
    F'.Sound where
  numbered id' hid' := by
    by_cases same : id' = id
    · rw [same]
      exact numbered
    · rw [h.historyOf_other same] at hid'
      have hlt := hF.numbered id' hid'
      rw [h.events, Log.attemptsIn_append]
      omega
  recorded vm hvm := by
    by_cases same : vm.engine.id = id
    · rw [same]
      exact recorded
    · rw [h.historyOf_other same]
      exact hF.recorded vm ((h.others vm same).mp hvm)
  distinct := distinct

/-- An episode is progress if the instance that it touches is accounted for. -/
theorem Touches.progress (h : Touches id new F F') (sound : F'.Sound)
    (accounts : ∀ c purpose, F.Accounts id c purpose → F'.Accounts id c purpose)
    (newcomer : F.historyOf id = [] →
      ∃ c purpose, K c purpose ∧ c.origin = id.origin ∧ F'.Accounts id c purpose) :
    Progress K F F' where
  sound := sound
  accounts id' c purpose hF := by
    by_cases same : id' = id
    · subst same
      exact accounts c purpose hF
    · exact h.accounts_other same hF
  newcomers id' hF hF' := by
    by_cases same : id' = id
    · subst same
      exact newcomer hF
    · exact absurd (h.historyOf_other same ▸ hF) hF'

/-- Whatever was made is at work or has been released. -/
theorem Accounts.refused_of_unreleased (h : F.Accounts id c purpose)
    (unreleased : .released id ∉ F.historyOf id) (gone : ∀ vm ∈ F.vms, vm.engine.id ≠ id) :
    ∃ e, c.make id.serial = .error e ∧ F.historyOf id = [.refused id e] := by
  cases h with
  | ended life gone =>
    generalize F.historyOf id = events at life unreleased ⊢
    cases life with
    | refused make => exact ⟨_, make, rfl⟩
    | probe make => simp at unreleased
    | serve make service => simp at unreleased
    | relieve make r message observed => simp at unreleased
  | atWork held same given make service => exact absurd same (gone _ held)

/-! ## Instances that are made -/

theorem Accounts.historyOf_ne_nil (h : F.Accounts id c purpose) : F.historyOf id ≠ [] := by
  cases h with
  | ended life gone =>
    obtain ⟨e, he, -⟩ := life.attempt
    exact List.ne_nil_of_mem he
  | atWork held same given make service => exact List.ne_nil_of_mem service.created_mem

theorem Sound.historyIn_nextIdAfter (h : Sound ⟨events, vms⟩) (origin : Origin) :
    Log.historyIn (Log.nextIdAfter origin events) events = [] := by
  by_contra hne
  exact absurd (h.numbered _ hne) (Nat.lt_irrefl _)

theorem Sound.id_ne_nextIdAfter (h : Sound ⟨events, vms⟩) (origin : Origin) (hvm : vm ∈ vms) :
    vm.engine.id ≠ Log.nextIdAfter origin events := by
  intro hid
  have hrecorded := h.recorded vm hvm
  rw [hid] at hrecorded
  exact hrecorded (h.historyIn_nextIdAfter origin)

/-- The next instance of a constructor is a new one, and what it is made for accounts for it. -/
theorem Touches.progress_of_next {F' : Fleet}
    (h : Touches (Log.nextIdAfter c.origin events) new ⟨events, vms⟩ F')
    (hF : Sound ⟨events, vms⟩) (asked : K c purpose)
    (attempt : ∃ e ∈ new, e.attempt? = some (Log.nextIdAfter c.origin events))
    (distinct : (F'.vms.map fun vm => vm.engine.id).Nodup)
    (accounts : F'.Accounts (Log.nextIdAfter c.origin events) c purpose) :
    Progress K ⟨events, vms⟩ F' := by
  have sound : F'.Sound := by
    refine h.sound hF ?_ accounts.historyOf_ne_nil distinct
    have hpos := Log.attemptsIn_pos attempt
    rw [h.events, Log.attemptsIn_append]
    exact Nat.lt_add_of_pos_right hpos
  refine h.progress sound ?_ ?_
  · intro c' purpose' hF'
    exact absurd (hF.historyIn_nextIdAfter c.origin) hF'.historyOf_ne_nil
  · intro _
    exact ⟨c, purpose, asked, rfl, accounts⟩

/-- A whole life that passes is progress. -/
theorem progress_pass (hF : Sound ⟨events, vms⟩) (asked : K c purpose)
    (life : Life c (Log.nextIdAfter c.origin events) purpose new) :
    Progress K ⟨events, vms⟩ ⟨events ++ new, vms⟩ := by
  have touches : Touches (Log.nextIdAfter c.origin events) new ⟨events, vms⟩
      ⟨events ++ new, vms⟩ := ⟨rfl, life.concerns, fun _ _ => Iff.rfl⟩
  refine touches.progress_of_next hF asked life.attempt hF.distinct (.ended ?_ ?_)
  · rw [touches.historyOf_self, historyOf, hF.historyIn_nextIdAfter, List.nil_append]
    exact life
  · exact fun vm hvm => hF.id_ne_nextIdAfter c.origin hvm

/-- An instance that is commissioned for a virtual machine is progress. -/
theorem progress_commission {b : Backend} {options : List VmOption} {fallback : Option Fallback}
    (tracing : Bool) (hF : Sound ⟨events, vms⟩) (asked : K c (.serve options fallback))
    (next : id = Log.nextIdAfter c.origin events) (make : c.make id.serial = .ok b) :
    Progress K ⟨events, vms⟩
      ⟨events ++ .created id :: b.configurations id options,
        { engine := { id, backend := b, state := b.configure b.start options }
          fallback, tracing } ::ₘ vms⟩ := by
  have service : Service b id options _ _ := .start
  have touches : Touches id (.created id :: b.configurations id options) ⟨events, vms⟩
      ⟨events ++ .created id :: b.configurations id options,
        { engine := { id, backend := b, state := b.configure b.start options }
          fallback, tracing } ::ₘ vms⟩ := by
    refine ⟨rfl, service.concerns, fun vm hne => ?_⟩
    refine ⟨fun hvm => (Multiset.mem_cons.mp hvm).resolve_left ?_, Multiset.mem_cons_of_mem⟩
    rintro rfl
    exact hne rfl
  subst next
  have held := Multiset.mem_cons_self
    (⟨{ id := Log.nextIdAfter c.origin events, backend := b, state := b.configure b.start options },
      fallback, tracing⟩ : Vm) vms
  refine touches.progress_of_next hF asked ⟨_, service.created_mem, rfl⟩ ?_
    (.atWork held rfl rfl make ?_)
  · rw [Multiset.map_cons, Multiset.nodup_cons]
    refine ⟨fun hmem => ?_, hF.distinct⟩
    obtain ⟨vm, hvm, hid⟩ := Multiset.mem_map.mp hmem
    exact hF.id_ne_nextIdAfter c.origin hvm hid
  · rw [touches.historyOf_self, historyOf, hF.historyIn_nextIdAfter, List.nil_append]
    exact service

/-! ## Instances of virtual machines -/

/-- If a virtual machine holds the instance, its purpose is to serve, and the virtual machine shows
how it has fared. -/
theorem Accounts.service_of_mem (hF : Sound ⟨events, vm ::ₘ vms⟩)
    (h : Accounts ⟨events, vm ::ₘ vms⟩ vm.engine.id c purpose) :
    ∃ options, purpose = .serve options vm.fallback ∧
      c.make vm.engine.id.serial = .ok vm.engine.backend ∧
      Service vm.engine.backend vm.engine.id options (Log.historyIn vm.engine.id events)
        vm.engine.state := by
  generalize hid : vm.engine.id = id at h
  cases h with
  | ended life gone => exact absurd hid (gone vm (Multiset.mem_cons_self vm vms))
  | atWork held same given make service =>
    obtain rfl := Multiset.inj_on_of_nodup_map hF.distinct _ held vm (Multiset.mem_cons_self vm vms)
      (same.trans hid.symm)
    exact ⟨_, given ▸ rfl, make, service⟩

/-- The instance of a virtual machine is no newcomer. -/
theorem Touches.progress_of_held (h : Touches vm.engine.id new ⟨events, vm ::ₘ vms⟩ F')
    (hF : Sound ⟨events, vm ::ₘ vms⟩) (distinct : (F'.vms.map fun vm => vm.engine.id).Nodup)
    (accounts : ∀ c purpose, Accounts ⟨events, vm ::ₘ vms⟩ vm.engine.id c purpose →
      F'.Accounts vm.engine.id c purpose) :
    Progress K ⟨events, vm ::ₘ vms⟩ F' := by
  have recorded := hF.recorded vm (Multiset.mem_cons_self vm vms)
  have sound : F'.Sound := by
    refine h.sound hF ?_ ?_ distinct
    · rw [h.events, Log.attemptsIn_append]
      exact Nat.lt_add_right _ (hF.numbered _ recorded)
    · rw [h.historyOf_self]
      exact List.append_ne_nil_of_left_ne_nil recorded new
  exact h.progress sound accounts fun hnil => absurd hnil recorded

/-- A call is one more event of a service. -/
theorem progress_call (hF : Sound ⟨events, vm ::ₘ vms⟩) (r : Revision) (message : Message)
    (observed : Bool) :
    Progress K ⟨events, vm ::ₘ vms⟩
      ⟨events ++ [vm.callEvent r message observed], vm.afterCall r message observed ::ₘ vms⟩ := by
  have touches : Touches vm.engine.id [vm.callEvent r message observed] ⟨events, vm ::ₘ vms⟩
      ⟨events ++ [vm.callEvent r message observed], vm.afterCall r message observed ::ₘ vms⟩ := by
    refine ⟨rfl, fun e he => List.mem_singleton.mp he ▸ rfl, fun vm' hne => ?_⟩
    rw [Multiset.mem_cons, Multiset.mem_cons]
    exact or_congr_left ⟨fun heq => absurd (heq ▸ rfl) hne, fun heq => absurd (heq ▸ rfl) hne⟩
  refine touches.progress_of_held hF ?_ fun c purpose h => ?_
  · rw [Multiset.map_cons]
    exact Multiset.map_cons (fun vm : Vm => vm.engine.id) vm vms ▸ hF.distinct
  · obtain ⟨options, rfl, make, service⟩ := h.service_of_mem hF
    have held := Multiset.mem_cons_self (vm.afterCall r message observed) vms
    refine .atWork held rfl rfl make ?_
    rw [touches.historyOf_self]
    exact service.call r message (vm.tracing || observed)

/-- With its release a service is over. -/
theorem progress_release (hF : Sound ⟨events, vm ::ₘ vms⟩) :
    Progress K ⟨events, vm ::ₘ vms⟩ ⟨events ++ [.released vm.engine.id], vms⟩ := by
  have touches : Touches vm.engine.id [.released vm.engine.id] ⟨events, vm ::ₘ vms⟩
      ⟨events ++ [.released vm.engine.id], vms⟩ := by
    refine ⟨rfl, fun e he => List.mem_singleton.mp he ▸ rfl, fun vm' hne => ?_⟩
    refine ⟨Multiset.mem_cons_of_mem, fun h => (Multiset.mem_cons.mp h).resolve_left ?_⟩
    rintro rfl
    exact hne rfl
  have distinct := hF.distinct
  rw [Multiset.map_cons, Multiset.nodup_cons] at distinct
  refine touches.progress_of_held hF distinct.2 fun c purpose h => ?_
  obtain ⟨options, rfl, make, service⟩ := h.service_of_mem hF
  refine .ended ?_ fun vm' hvm' hid => distinct.1 (Multiset.mem_map.mpr ⟨vm', hvm', hid⟩)
  rw [touches.historyOf_self]
  exact .serve make service

/-! ## Episodes -/

theorem Episode.progress (h : Episode K F F') (hF : F.Sound) : Progress K F F' := by
  cases h with
  | pass asked life => exact progress_pass hF asked life
  | commission tracing id asked next make => exact progress_commission tracing hF asked next make
  | call r message observed => exact progress_call hF r message observed
  | release => exact progress_release hF

theorem Progress.trans (h : Progress K F F') (h' : Progress K F' F'') : Progress K F F'' where
  sound := h'.sound
  accounts id c purpose hF := h'.accounts id c purpose (h.accounts id c purpose hF)
  newcomers id hF hF'' := by
    by_cases hF' : F'.historyOf id = []
    · exact h'.newcomers id hF' hF''
    · obtain ⟨c, purpose, asked, origin, accounts⟩ := h.newcomers id hF hF'
      exact ⟨c, purpose, asked, origin, h'.accounts id c purpose accounts⟩

/-- After any number of episodes every instance is accounted for. -/
theorem progress_of_episodes (h : Relation.ReflTransGen (Episode K) F F') (hF : F.Sound) :
    Progress K F F' := by
  induction h with
  | refl => exact ⟨hF, fun _ _ _ h => h, fun _ hnil hne => absurd hnil hne⟩
  | tail _ episode ih => exact ih.trans (episode.progress ih.sound)

end Fleet

end EvmDispatch
