import EvmDispatch.Proofs.Machine.Lockstep
import EvmDispatch.Proofs.Machine.Untouched

/-!
# What a failing instruction leaves

An instruction takes operands, pays, grows the memory, writes and leaves a result, and each of these
can fail. All the same a failure touches neither the memory nor the storage: what comes behind a
growth or a write does not fail any more. Behind the growth a range is covered, and behind a load
there is room for the word, because the address that made room for it has been taken from a stack
that was not too high. So memory only grows by steps that do not fail, and those pay for it.
-/

namespace EvmDispatch

/-- An exchange leaves as many items as there were. -/
theorem Stack.length_of_exchange? {n : Nat} {items items' : List Word}
    (h : Stack.exchange? n items = some items') : items'.length = items.length := by
  cases items with
  | nil => cases h
  | cons w rest =>
    rw [Stack.exchange?] at h
    split at h
    · cases h
    · obtain ⟨deep, -, rfl⟩ := Option.map_eq_some_iff.mp h
      rw [List.length_cons, List.length_set, List.length_cons]

/-! ## One instruction -/

namespace Machine

variable {α β : Type} {m m' : Machine} {f : Frame} {offset : Nat} {i : Instruction} {c : Control}

/-- What outlasts the operands. -/
def contents (m : Machine) : Memory × Storage := (m.memory, m.storage)

/-- If the action fails, memory and storage are as they were. -/
def Spares (x : Action α) (m : Machine) : Prop :=
  ∀ status m', x m = .error status m' → m'.contents = m.contents

/-- What never touches memory and storage does not when it fails. -/
theorem Keeps.spares {x : Action α} (h : Keeps contents x) (m : Machine) : Spares x m := by
  intro status m' hx
  have hkept := h m
  rw [hx] at hkept
  exact hkept

theorem contents_law : StackLaw fun _ x => Keeps contents x :=
  Keeps.stackLaw fun _ _ => rfl

theorem spares_of_ok {x : Action α} {a : α} (h : x m = .ok a m') : Spares x m := by
  intro status m₁ hx
  rw [h] at hx
  cases hx

/-- What is written where the memory has been grown for it, is written. -/
theorem exists_write_grown (m : Machine) (start : Nat) {size : Nat} {bytes : Bytes}
    (h : bytes.length = size) :
    ∃ c m', (writeMemory start bytes >>= fun _ => pure .next : Action Control)
      (m.grown start size) = .ok c m' := by
  have hcovered : (m.grown start size).memory.covers start bytes.length = true := by
    rw [h]
    exact m.memory.covers_expanded start size
  exact ⟨.next, _, bind_apply (writeMemory_apply hcovered)⟩

/-- What is read there is read, and goes on the stack if there is room. -/
theorem exists_load_grown (m : Machine) (start : Nat) (room : m.stack.depth < m.stack.limit) :
    ∃ c m', (readMemory start 32 >>= fun bytes => push (.ofSlice bytes) >>= fun _ => pure .next :
      Action Control) (m.grown start 32) = .ok c m' := by
  have hcovered : (m.grown start 32).memory.covers start 32 = true :=
    m.memory.covers_expanded start 32
  have hroom : (m.grown start 32).stack.depth < (m.grown start 32).stack.limit := room
  rw [bind_apply (readMemory_apply hcovered)]
  exact ⟨.next, _, bind_apply (push_of_room hroom)⟩

/-- Where an operand has been taken from a stack that is not too high, there is room for a word. -/
theorem room_of_taken {a : Word} (taken : List Word) {rest : List Word}
    (height : m.stack.depth ≤ m.stack.limit) (hitems : m.stack.items = a :: (taken ++ rest)) :
    rest.length < m.stack.limit := by
  rw [Stack.depth, hitems, List.length_cons, List.length_append] at height
  omega

namespace Spares

/-- Before the first change everything may fail. -/
theorem bind_of_keeps {x : Action α} {g : α → Action β} (first : Keeps contents x)
    (rest : ∀ a m', x m = .ok a m' → Spares (g a) m') : Spares (x >>= g) m := by
  intro status m₂ h
  have hfirst := first m
  simp only [bind, EStateM.bind] at h
  cases hx : x m with
  | error status' m₁ =>
    rw [hx] at h hfirst
    cases h
    exact hfirst
  | ok a m₁ =>
    rw [hx] at h hfirst
    have hrest := rest a m₁ hx status m₂ h
    exact hrest.trans hfirst

/-- Behind it nothing must. -/
theorem bind_of_succeeds {x : Action α} {g : α → Action β} (first : Spares x m)
    (rest : ∀ a m', x m = .ok a m' → ∃ b m'', g a m' = .ok b m'') : Spares (x >>= g) m := by
  intro status m₂ h
  simp only [bind, EStateM.bind] at h
  cases hx : x m with
  | error status' m₁ =>
    rw [hx] at h
    cases h
    exact first _ _ hx
  | ok a m₁ =>
    obtain ⟨b, m₃, hrest⟩ := rest a m₁ hx
    rw [hx] at h
    cases h.symm.trans hrest

/-- Growing fails before the memory has grown. -/
theorem of_grow (address : Word) (size : Nat) (m : Machine) : Spares (grow address size) m := by
  unfold grow
  cases address.index? with
  | none => exact Keeps.spares (contents_law.throw rfl) m
  | some start =>
    have hget : Keeps contents (get : Action Machine) := fun _ => rfl
    refine bind_of_keeps hget fun now m₁ _ => ?_
    refine bind_of_keeps (contents_law.of_require fun _ => isFault_of_expansionPrice)
      fun price m₂ _ => ?_
    refine bind_of_keeps (.of_charge (fun _ _ => rfl) price) fun _ m₃ _ => ?_
    refine bind_of_keeps hget fun now' m₄ _ => ?_
    refine bind_of_keeps (contents_law.of_require fun _ => isFault_of_expand) fun memory m₅ _ => ?_
    exact spares_of_ok rfl

theorem of_growRange (address size : Word) (m : Machine) : Spares (growRange address size) m := by
  unfold growRange
  split
  · exact spares_of_ok rfl
  · exact (of_grow address _ m).bind_of_succeeds fun start m' _ => ⟨_, m', rfl⟩
  · exact Keeps.spares (contents_law.throw rfl) m

theorem of_finish (reverts : Bool) (m : Machine) : Spares (finish reverts) m := by
  refine bind_of_keeps contents_law.of_pop fun start m₁ _ => ?_
  refine bind_of_keeps contents_law.of_pop fun size m₂ _ => ?_
  exact (of_growRange start size m₂).bind_of_succeeds fun range m' _ => ⟨_, m', rfl⟩

/-- Behind the growth the write does not fail any more. -/
theorem of_grow_write (target : Word) {size : Nat} (bytes : Bytes) (h : bytes.length = size)
    (m : Machine) :
    Spares (grow target size >>= fun start => writeMemory start bytes >>= fun _ => pure .next :
      Action Control) m := by
  refine (of_grow target size m).bind_of_succeeds ?_
  intro start m₁ hgrow
  obtain ⟨-, rfl⟩ := grow_eq_ok hgrow
  exact exists_write_grown m start h

/-- An instruction that fails, while the stack is not too high, spares memory and storage. -/
theorem of_perform (h : m.stack.depth ≤ m.stack.limit) : Spares (perform f offset i) m := by
  have hpop : Keeps contents Machine.pop := contents_law.of_pop
  cases i with
  | memoryLoad =>
    refine bind_of_keeps hpop fun address m₁ hm₁ => ?_
    obtain ⟨rest, hitems, rfl⟩ := pop_eq_ok hm₁
    refine (of_grow address 32 _).bind_of_succeeds fun start m₂ hm₂ => ?_
    obtain ⟨-, rfl⟩ := grow_eq_ok hm₂
    -- the word takes the place of its address
    have room : rest.length < m.stack.limit := room_of_taken [] h hitems
    exact exists_load_grown (m.withItems rest) start room
  | memoryStore =>
    refine bind_of_keeps hpop fun target m₁ _ => bind_of_keeps hpop fun value m₂ _ => ?_
    exact of_grow_write target value.toBytes value.length_toBytes m₂
  | memoryStoreByte =>
    refine bind_of_keeps hpop fun target m₁ _ => bind_of_keeps hpop fun value m₂ _ => ?_
    exact of_grow_write target [value.lowByte] rfl m₂
  | storageStore =>
    refine bind_of_keeps (contents_law.of_requireMutable f) fun _ m₁ _ => ?_
    refine bind_of_keeps hpop fun key m₂ _ => bind_of_keeps hpop fun value m₃ _ => ?_
    refine bind_of_keeps (fun _ => rfl) fun now m₄ _ => ?_
    refine bind_of_keeps (.of_charge (fun _ _ => rfl) _) fun _ m₅ _ => ?_
    exact spares_of_ok rfl
  | log topics =>
    refine bind_of_keeps (contents_law.of_requireMutable f) fun _ m₁ _ => ?_
    refine bind_of_keeps hpop fun start m₂ _ => bind_of_keeps hpop fun size m₃ _ => ?_
    refine bind_of_keeps (contents_law.of_popMany topics) fun _ m₄ _ => ?_
    split
    · refine bind_of_keeps (.of_charge (fun _ _ => rfl) _) fun _ m₅ _ => ?_
      exact (of_growRange start size m₅).bind_of_succeeds fun range m' _ => ⟨_, m', rfl⟩
    · refine bind_of_keeps (contents_law.throw rfl) fun _ m₅ _ => ?_
      exact (of_growRange start size m₅).bind_of_succeeds fun range m' _ => ⟨_, m', rfl⟩
  | halt => exact of_finish false m
  | revert => exact of_finish true m
  | _ =>
    refine Keeps.spares (contents_law.of_stackOnly rfl fun _ => ?_) m
    exact Keeps.bind (fun _ => rfl) fun _ => contents_law.of_push_next _

/-- Whatever a frame executes spares memory and storage when it fails. -/
theorem of_executeAt (h : m.stack.depth ≤ m.stack.limit) : Spares (f.executeAt offset) m := by
  unfold Frame.executeAt
  split
  · refine bind_of_keeps (.of_charge (fun _ _ => rfl) _) fun _ m₁ hm₁ => ?_
    obtain ⟨-, rfl⟩ := charge_eq_ok_iff.mp hm₁
    exact of_perform h
  · exact Keeps.spares (contents_law.throw rfl) m

end Spares

/-- No instruction leaves a stack that is too high. -/
theorem Effect.depth_le (h : Effect f offset i m c m') (hm : m.stack.depth ≤ m.stack.limit) :
    m'.stack.depth ≤ m'.stack.limit := by
  have hrest : ∀ taken rest, m.stack.items = taken ++ rest → rest.length ≤ m.stack.limit := by
    intro taken rest hitems
    rw [Stack.depth, hitems, List.length_append] at hm
    omega
  cases h with
  | stop => exact hm
  | binary operands room => exact room
  | unary operands room => exact room
  | query room => exact room
  | callDataLoad operands room => exact room
  | pop operands => exact hrest [_] _ operands
  | memoryLoad operands can room => exact room
  | memoryStore operands can => exact hrest [_, _] _ operands
  | memoryStoreByte operands can => exact hrest [_, _] _ operands
  | storageLoad operands room => exact room
  | storageStore mayChange operands priced paid => exact hrest [_, _] _ operands
  | jump operands index destination => exact hrest [_] _ operands
  | jumpIfTaken operands holds index destination => exact hrest [_, _] _ operands
  | jumpIfPassed operands fails => exact hrest [_, _] _ operands
  | jumpDestination => exact hm
  | push room => exact room
  | dup pos operand room => exact room
  | swap exchanged =>
    rw [Stack.depth, ← Stack.length_of_exchange? exchanged] at hm
    exact hm
  | @log _ _ topics count start size dropped rest range mayChange operands _ counted paid grows =>
    rw [grows.stack_eq]
    exact hrest (start :: size :: dropped) rest operands
  | halt operands grows =>
    rw [grows.stack_eq]
    exact hrest [_, _] _ operands
  | revert operands grows =>
    rw [grows.stack_eq]
    exact hrest [_, _] _ operands

end Machine

/-! ## A whole run -/

namespace Frame

open Machine

variable {f : Frame} {gas : Int} {p q : Point}

/-- What the instruction at a point has to pay: its price, its surcharge, and the growth of the
memory to the words that it touches. -/
def costAt (f : Frame) (p : Point) : Nat :=
  f.priceAt p + f.surchargeAt p +
    (Memory.wordsPrice (Memory.wordsFor (max p.machine.memory.size (f.furthest [p]))) -
      p.machine.memory.worth)

/-- At a point of a run that started with some gas, the stack is not too high, and the memory has
been paid for. -/
structure Funded (gas : Int) (p : Point) : Prop where
  height : p.machine.stack.depth ≤ p.machine.stack.limit
  aligned : 32 ∣ p.machine.memory.size
  paid : p.machine.gas + p.machine.memory.worth ≤ gas

/-- What is funded stays funded from point to point. -/
theorem Funded.next (hp : Funded gas p) (h : f.next? p = some q) : Funded gas q := by
  obtain ⟨c, hresult, -⟩ := next?_eq_some h
  obtain ⟨i, -, -, effect⟩ := effect_of_executeAt hresult
  have hpotential := potential_of_resultAt hresult
  have hpaid := hp.paid
  refine ⟨effect.depth_le hp.height, dvd_size_of_resultAt hp.aligned hresult, ?_⟩
  omega

/-- Every point of a run is funded by the gas that it started with. -/
theorem funded_of_mem_trail {settings : Settings} (hp : p ∈ f.trail (.start settings gas)) :
    Funded gas p := by
  refine forall_mem_trail (Funded gas) (fun p q hp h => hp.next h) ⟨?_, ?_, ?_⟩ p hp
  · exact Nat.zero_le _
  · exact Nat.dvd_zero 32
  · simp [Point.start, Memory.worth, Memory.wordsFor, Memory.wordsPrice]

theorem Funded.size_eq (hp : Funded gas p) :
    p.machine.memory.size = 32 * Memory.wordsFor p.machine.memory.size := by
  obtain ⟨words, hwords⟩ := hp.aligned
  rw [hwords, Memory.wordsFor_mul]

/-- A failure leaves memory and storage as they were. -/
theorem Funded.of_error (hp : Funded gas p) {status : Status} {m : Machine}
    (h : f.resultAt p = .error status m) :
    m.memory = p.machine.memory ∧ m.storage = p.machine.storage := by
  have hcontents := Spares.of_executeAt hp.height status m h
  exact Prod.mk.inj hcontents

/-- After a step, whether it fails or not, the memory has been paid for. -/
theorem Funded.paid_after (hp : Funded gas p) :
    Memory.wordsPrice ((stateOf (f.resultAt p)).memory.size / 32) ≤
      gas - (stateOf (f.resultAt p)).gas := by
  have hpaid := hp.paid
  cases hresult : f.resultAt p with
  | ok c m =>
    have hpotential := potential_of_resultAt hresult
    have hworth := Memory.worth_of_dvd (dvd_size_of_resultAt hp.aligned hresult)
    simp only [stateOf]
    omega
  | error status m =>
    obtain ⟨hmemory, -⟩ := hp.of_error hresult
    have hgas := gas_resultAt_le f p
    rw [hresult] at hgas
    have hworth := Memory.worth_of_dvd hp.aligned
    simp only [stateOf] at hgas ⊢
    rw [hmemory]
    omega

/-- An instruction that does not fail pays what it has to. -/
theorem Funded.cost_eq (hp : Funded gas p) {c : Control} {m : Machine}
    (h : f.resultAt p = .ok c m) : m.gas + f.costAt p = p.machine.gas := by
  obtain ⟨i, hinstruction, -, effect⟩ := effect_of_executeAt h
  have htouched : f.furthest [p] = i.touchedEnd p.machine.stack.items := by
    have hconcat := furthest_concat hinstruction []
    simpa [furthest] using hconcat
  have hsize := effect.size_eq hp.size_eq
  have hworth : m.memory.worth =
      Memory.wordsPrice (Memory.wordsFor (max p.machine.memory.size (f.furthest [p]))) := by
    rw [Memory.worth, hsize, Memory.wordsFor_mul, htouched]
  have hgrowth : p.machine.memory.worth ≤ m.memory.worth := by
    rw [hworth]
    apply Memory.wordsPrice_mono
    unfold Memory.wordsFor
    omega
  have hpotential := potential_of_resultAt h
  rw [costAt, ← hworth]
  omega

/-- Failing instructions touch neither memory nor storage, and memory is always paid for. Whatever
the code, the settings, the revision, the call and the gas are: a step that fails, by whatever
status, leaves memory and storage as they were; at every step, failing or not, the price of the
memory is at most the gas spent; and an instruction that cannot be paid for, however far the range
is that it touches, fails and does not make the memory grow. -/
theorem run_faults_spare_memory (f : Frame) (settings : Settings) (gas : Int) :
    let points := f.trail (.start settings gas)
    let steps := (f.run settings gas true).steps
    steps = points.map (f.stepAt settings) ∧
      (∀ p ∈ points, let s := f.stepAt settings p
        s.status ≠ .success → s.status ≠ .revert →
        ∃ m, f.resultAt p = .error s.status m ∧ m.memory = p.machine.memory ∧
          m.storage = p.machine.storage ∧ s.memorySize = p.machine.memory.size) ∧
      (∀ s ∈ steps, Memory.wordsPrice (s.memorySize / 32) ≤ gas - s.gasLeft) ∧
      ∀ p ∈ points, p.machine.gas < f.costAt p →
        ∃ status m, f.resultAt p = .error status m ∧ m.memory = p.machine.memory := by
  intro points steps
  have hsteps : steps = points.map (f.stepAt settings) := run_steps_observed f settings gas
  refine ⟨hsteps, ?_, ?_, ?_⟩
  · intro p hp s hsuccess hrevert
    obtain ⟨m, hresult⟩ := error_of_stepAt hsuccess hrevert
    obtain ⟨hmemory, hstorage⟩ := (funded_of_mem_trail hp).of_error hresult
    refine ⟨m, hresult, hmemory, hstorage, ?_⟩
    rw [memorySize_stepAt, hresult]
    exact congrArg Memory.size hmemory
  · intro s hs
    rw [hsteps] at hs
    obtain ⟨p, hp, rfl⟩ := List.mem_map.mp hs
    rw [memorySize_stepAt, gasLeft_stepAt]
    exact (funded_of_mem_trail hp).paid_after
  · intro p hp hcost
    cases hresult : f.resultAt p with
    | ok c m =>
      have hpaid := (funded_of_mem_trail hp).cost_eq hresult
      have hgas := executeAt_gas_nonneg hresult
      omega
    | error status m =>
      obtain ⟨hmemory, -⟩ := (funded_of_mem_trail hp).of_error hresult
      exact ⟨status, m, rfl, hmemory⟩

end Frame

end EvmDispatch
