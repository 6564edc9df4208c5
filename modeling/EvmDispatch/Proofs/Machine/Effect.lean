import EvmDispatch.Machine.Frugal

/-!
# What an instruction does when it does not fail

`Effect` has a constructor per instruction, which tells where the execution goes on, in which state,
and what made it possible. `effect_of_perform` reads all of them off the definitions once, so that a
law about single instructions is a case analysis of `Effect`.
-/

namespace EvmDispatch.Machine

/-- The machine with other operands. -/
def withItems (m : Machine) (items : List Word) : Machine :=
  { m with stack := { m.stack with items } }

@[simp] theorem withItems_stack (m : Machine) (items : List Word) :
    (m.withItems items).stack = { m.stack with items } := rfl

@[simp] theorem withItems_memory (m : Machine) (items : List Word) :
    (m.withItems items).memory = m.memory := rfl

@[simp] theorem withItems_storage (m : Machine) (items : List Word) :
    (m.withItems items).storage = m.storage := rfl

@[simp] theorem withItems_gas (m : Machine) (items : List Word) :
    (m.withItems items).gas = m.gas := rfl

/-- What it costs to grow the memory for an access. -/
def growthPrice (m : Machine) (start size : Nat) : Nat :=
  (m.memory.expanded start size).worth - m.memory.worth

/-- The machine after it has paid for an access and grown its memory. -/
def grown (m : Machine) (start size : Nat) : Machine :=
  { m with memory := m.memory.expanded start size, gas := m.gas - m.growthPrice start size }

/-- An access of `size` bytes at an address starts at `start`, and can be paid for. -/
structure CanGrow (m : Machine) (address : Word) (size start : Nat) : Prop where
  /-- The address is a number that fits into one limb. -/
  index : address.index? = some start
  /-- The access ends inside the greatest memory. -/
  bounded : size = 0 ∨ start + size ≤ Memory.maxSize
  /-- There is enough gas. -/
  paid : (m.growthPrice start size : Int) ≤ m.gas

/-- How a range of the memory is made accessible: an empty one is nowhere and costs nothing. -/
inductive RangeGrowth (m : Machine) (address size : Word) : Nat × Nat → Machine → Prop where
  /-- The range is empty. -/
  | empty (zero : size.index? = some 0) : RangeGrowth m address size (0, 0) m
  /-- The range is not empty. -/
  | range {start count : Nat} (counted : size.index? = some count) (pos : count ≠ 0)
    (can : m.CanGrow address count start) :
    RangeGrowth m address size (start, count) (m.grown start count)

/-- What an instruction at an offset does to a machine if it does not fail. -/
inductive Effect (f : Frame) (offset : Nat) :
    Instruction → Machine → Control → Machine → Prop where
  | stop {m : Machine} : Effect f offset .stop m (.finish false 0 0) m
  | binary {m : Machine} {op : BinaryInstruction} {a b : Word} {rest : List Word}
    (operands : m.stack.items = a :: b :: rest) (room : rest.length < m.stack.limit) :
    Effect f offset (.binary op) m .next (m.withItems (op.eval a b :: rest))
  | unary {m : Machine} {op : UnaryInstruction} {a : Word} {rest : List Word}
    (operands : m.stack.items = a :: rest) (room : rest.length < m.stack.limit) :
    Effect f offset (.unary op) m .next (m.withItems (op.eval a :: rest))
  | query {m : Machine} {op : QueryInstruction} (room : m.stack.depth < m.stack.limit) :
    Effect f offset (.query op) m .next (m.withItems (op.eval f offset m :: m.stack.items))
  | callDataLoad {m : Machine} {start : Word} {rest : List Word}
    (operands : m.stack.items = start :: rest) (room : rest.length < m.stack.limit) :
    Effect f offset .callDataLoad m .next (m.withItems (.loadPadded f.input start :: rest))
  | pop {m : Machine} {a : Word} {rest : List Word} (operands : m.stack.items = a :: rest) :
    Effect f offset .pop m .next (m.withItems rest)
  | memoryLoad {m : Machine} {address : Word} {rest : List Word} {start : Nat}
    (operands : m.stack.items = address :: rest) (can : m.CanGrow address 32 start)
    (room : rest.length < m.stack.limit) :
    Effect f offset .memoryLoad m .next
      ((m.grown start 32).withItems (.ofSlice ((m.grown start 32).memory.slice start 32) :: rest))
  | memoryStore {m : Machine} {address value : Word} {rest : List Word} {start : Nat}
    (operands : m.stack.items = address :: value :: rest) (can : m.CanGrow address 32 start) :
    Effect f offset .memoryStore m .next
      { (m.grown start 32).withItems rest with
        memory := (m.grown start 32).memory.write start value.toBytes }
  | memoryStoreByte {m : Machine} {address value : Word} {rest : List Word} {start : Nat}
    (operands : m.stack.items = address :: value :: rest) (can : m.CanGrow address 1 start) :
    Effect f offset .memoryStoreByte m .next
      { (m.grown start 1).withItems rest with
        memory := (m.grown start 1).memory.write start [value.lowByte] }
  | storageLoad {m : Machine} {key : Word} {rest : List Word}
    (operands : m.stack.items = key :: rest) (room : rest.length < m.stack.limit) :
    Effect f offset .storageLoad m .next (m.withItems (m.storage.load key :: rest))
  | storageStore {m : Machine} {key value : Word} {rest : List Word} {price : Nat}
    (mayChange : f.isStatic = false) (operands : m.stack.items = key :: value :: rest)
    (priced : price = storePrice ((m.storage.load key).isZero && !value.isZero))
    (paid : (price : Int) ≤ m.gas) :
    Effect f offset .storageStore m .next
      { m.withItems rest with gas := m.gas - price, storage := m.storage.store key value }
  | jump {m : Machine} {target : Word} {rest : List Word} {goal : Nat}
    (operands : m.stack.items = target :: rest) (index : target.index? = some goal)
    (destination : f.jumpTargets.getD goal false = true) :
    Effect f offset .jump m (.jump goal) (m.withItems rest)
  | jumpIfTaken {m : Machine} {target condition : Word} {rest : List Word} {goal : Nat}
    (operands : m.stack.items = target :: condition :: rest)
    (holds : condition.isZero = false) (index : target.index? = some goal)
    (destination : f.jumpTargets.getD goal false = true) :
    Effect f offset .jumpIf m (.jump goal) (m.withItems rest)
  | jumpIfPassed {m : Machine} {target condition : Word} {rest : List Word}
    (operands : m.stack.items = target :: condition :: rest) (fails : condition.isZero = true) :
    Effect f offset .jumpIf m .next (m.withItems rest)
  | jumpDestination {m : Machine} : Effect f offset .jumpDestination m .next m
  | push {m : Machine} {size : Nat} (room : m.stack.depth < m.stack.limit) :
    Effect f offset (.push size) m .next (m.withItems (f.immediateAt offset size :: m.stack.items))
  | dup {m : Machine} {n : Nat} {w : Word} (pos : n ≠ 0)
    (operand : m.stack.items[n - 1]? = some w) (room : m.stack.depth < m.stack.limit) :
    Effect f offset (.dup n) m .next (m.withItems (w :: m.stack.items))
  | swap {m : Machine} {n : Nat} {items : List Word}
    (exchanged : Stack.exchange? n m.stack.items = some items) :
    Effect f offset (.swap n) m .next (m.withItems items)
  | log {m m' : Machine} {topics count : Nat} {start size : Word} {dropped rest : List Word}
    {range : Nat × Nat} (mayChange : f.isStatic = false)
    (operands : m.stack.items = start :: size :: (dropped ++ rest))
    (dropped_length : dropped.length = topics) (counted : size.index? = some count)
    (paid : (logDataPrice count : Int) ≤ m.gas)
    (grows : RangeGrowth { m.withItems rest with gas := m.gas - logDataPrice count } start size
      range m') :
    Effect f offset (.log topics) m .next m'
  | halt {m m' : Machine} {start size : Word} {rest : List Word} {range : Nat × Nat}
    (operands : m.stack.items = start :: size :: rest)
    (grows : RangeGrowth (m.withItems rest) start size range m') :
    Effect f offset .halt m (.finish false range.1 range.2) m'
  | revert {m m' : Machine} {start size : Word} {rest : List Word} {range : Nat × Nat}
    (operands : m.stack.items = start :: size :: rest)
    (grows : RangeGrowth (m.withItems rest) start size range m') :
    Effect f offset .revert m (.finish true range.1 range.2) m'

/-! ## The parts of an instruction -/

variable {m m' : Machine}

theorem bind_apply {α β : Type} {x : Action α} {g : α → Action β} {a : α} (h : x m = .ok a m') :
    (x >>= g) m = g a m' := by
  simp only [bind, EStateM.bind, h]

theorem pure_eq_ok {α : Type} {a b : α} (h : (pure a : Action α) m = .ok b m') :
    a = b ∧ m = m' := by
  rw [pure_apply] at h
  obtain ⟨rfl, rfl⟩ := EStateM.Result.ok.inj h
  exact ⟨rfl, rfl⟩

theorem get_eq_ok {m₁ : Machine} (h : (get : Action Machine) m = .ok m₁ m') :
    m = m₁ ∧ m = m' := by
  rw [get_apply] at h
  obtain ⟨rfl, rfl⟩ := EStateM.Result.ok.inj h
  exact ⟨rfl, rfl⟩

theorem modify_eq_ok {change : Machine → Machine} {u : Unit}
    (h : (modify change : Action Unit) m = .ok u m') : m' = change m :=
  (EStateM.Result.ok.inj h).2.symm

theorem require_eq_ok {α : Type} {x : Except Status α} {a : α} (h : require x m = .ok a m') :
    x = .ok a ∧ m = m' := by
  cases x with
  | ok b =>
    obtain ⟨rfl, rfl⟩ := pure_eq_ok h
    exact ⟨rfl, rfl⟩
  | error e => cases h

theorem updateStack_eq_ok {change : Stack → Except Status Stack} {u : Unit}
    (h : updateStack change m = .ok u m') :
    ∃ stack, change m.stack = .ok stack ∧ m' = { m with stack } := by
  obtain ⟨now, m₁, h₁, h⟩ := bind_eq_ok h
  obtain ⟨rfl, rfl⟩ := get_eq_ok h₁
  obtain ⟨stack, m₂, h₂, h⟩ := bind_eq_ok h
  obtain ⟨hstack, rfl⟩ := require_eq_ok h₂
  exact ⟨stack, hstack, modify_eq_ok h⟩

theorem pop_eq_ok {w : Word} (h : pop m = .ok w m') :
    ∃ rest, m.stack.items = w :: rest ∧ m' = m.withItems rest := by
  obtain ⟨now, m₁, h₁, h⟩ := bind_eq_ok h
  obtain ⟨rfl, rfl⟩ := get_eq_ok h₁
  obtain ⟨⟨top, stack⟩, m₂, h₂, h⟩ := bind_eq_ok h
  obtain ⟨hpop, rfl⟩ := require_eq_ok h₂
  obtain ⟨_, m₃, h₃, h⟩ := bind_eq_ok h
  have hm₃ := modify_eq_ok h₃
  obtain ⟨rfl, rfl⟩ := pure_eq_ok h
  unfold Stack.pop at hpop
  split at hpop
  · cases hpop
  · rename_i v rest hitems
    cases hpop
    exact ⟨rest, hitems, hm₃⟩

theorem pop_bind_apply {α : Type} {next : Word → Action α} {a : Word} {rest : List Word}
    (h : m.stack.items = a :: rest) : (pop >>= next) m = next a (m.withItems rest) := by
  have hpop : pop m = .ok a (m.withItems rest) := by
    simp [pop, bind, EStateM.bind, get_apply, Stack.pop, h, require]
    rfl
  rw [bind_apply hpop]

/-- Most instructions start by taking an operand. -/
theorem pop_bind_eq_ok {α : Type} {next : Word → Action α} {x : α}
    (h : (pop >>= next) m = .ok x m') :
    ∃ a rest, m.stack.items = a :: rest ∧ next a (m.withItems rest) = .ok x m' := by
  obtain ⟨a, m₁, h₁, h⟩ := bind_eq_ok h
  obtain ⟨rest, hitems, rfl⟩ := pop_eq_ok h₁
  exact ⟨a, rest, hitems, h⟩

/-- Many take two. -/
theorem pop_pop_eq_ok {α : Type} {next : Word → Word → Action α} {x : α}
    (h : (pop >>= fun a => pop >>= fun b => next a b) m = .ok x m') :
    ∃ a b rest, m.stack.items = a :: b :: rest ∧ next a b (m.withItems rest) = .ok x m' := by
  obtain ⟨a, rest₁, hitems, h⟩ := pop_bind_eq_ok h
  obtain ⟨b, rest, hrest₁, h⟩ := pop_bind_eq_ok h
  have hrest₁ : rest₁ = b :: rest := hrest₁
  exact ⟨a, b, rest, by rw [hitems, hrest₁], h⟩

/-- Whether there is room for a word does not depend on the word. -/
theorem push_apply (w : Word) (m : Machine) :
    push w m =
      if m.stack.depth < m.stack.limit then .ok () (m.withItems (w :: m.stack.items))
      else .error .stackOverflow m := by
  simp only [push, updateStack, bind, EStateM.bind, get_apply, Stack.push]
  by_cases room : m.stack.depth < m.stack.limit
  · rw [if_pos room, if_pos room]
    rfl
  · rw [if_neg room, if_neg room]
    rfl

theorem push_of_room {w : Word} (room : m.stack.depth < m.stack.limit) :
    push w m = .ok () (m.withItems (w :: m.stack.items)) := by
  rw [push_apply, if_pos room]

theorem push_eq_ok {w : Word} {u : Unit} (h : push w m = .ok u m') :
    m.stack.depth < m.stack.limit ∧ m' = m.withItems (w :: m.stack.items) := by
  rw [push_apply] at h
  split at h
  · rename_i room
    cases h
    exact ⟨room, rfl⟩
  · cases h

/-- Many end by leaving a word on the stack. -/
theorem push_next_eq_ok {w : Word} {c : Control}
    (h : (push w >>= fun _ => pure .next : Action Control) m = .ok c m') :
    m.stack.depth < m.stack.limit ∧ .next = c ∧ m' = m.withItems (w :: m.stack.items) := by
  obtain ⟨_, m₁, h₁, h⟩ := bind_eq_ok h
  obtain ⟨room, rfl⟩ := push_eq_ok h₁
  obtain ⟨rfl, rfl⟩ := pure_eq_ok h
  exact ⟨room, rfl, rfl⟩

theorem dup_eq_ok {s s' : Stack} {n : Nat} (h : s.dup n = .ok s') :
    ∃ w, n ≠ 0 ∧ s.items[n - 1]? = some w ∧ s.depth < s.limit ∧
      s' = { s with items := w :: s.items } := by
  unfold Stack.dup at h
  split at h
  · cases h
  · rename_i pos
    split at h
    · rename_i w hw
      unfold Stack.push at h
      split at h
      · rename_i room
        cases h
        exact ⟨w, pos, hw, room, rfl⟩
      · cases h
    · cases h

theorem swap_eq_ok {s s' : Stack} {n : Nat} (h : s.swap n = .ok s') :
    ∃ items, Stack.exchange? n s.items = some items ∧ s' = { s with items } := by
  unfold Stack.swap at h
  split at h
  · rename_i items exchanged
    cases h
    exact ⟨items, exchanged, rfl⟩
  · cases h

theorem popMany_eq_ok {n : Nat} {u : Unit} (h : popMany n m = .ok u m') :
    ∃ dropped rest, m.stack.items = dropped ++ rest ∧ dropped.length = n ∧
      m' = m.withItems rest := by
  induction n generalizing m with
  | zero =>
    obtain ⟨-, rfl⟩ := pure_eq_ok h
    exact ⟨[], m.stack.items, rfl, rfl, rfl⟩
  | succ n ih =>
    obtain ⟨w, rest, hitems, h⟩ := pop_bind_eq_ok h
    obtain ⟨dropped, rest', hrest, hlength, rfl⟩ := ih h
    have hrest : rest = dropped ++ rest' := hrest
    refine ⟨w :: dropped, rest', ?_, by rw [List.length_cons, hlength], rfl⟩
    rw [hitems, hrest, List.cons_append]

/-- Memory that grows has been paid for. -/
theorem grow_eq_ok {address : Word} {size start : Nat} (h : grow address size m = .ok start m') :
    m.CanGrow address size start ∧ m' = m.grown start size := by
  unfold grow at h
  cases hindex : address.index? with
  | none =>
    rw [hindex] at h
    cases h
  | some offset =>
    simp only [hindex] at h
    obtain ⟨now, m₁, h₁, h⟩ := bind_eq_ok h
    obtain ⟨rfl, rfl⟩ := get_eq_ok h₁
    obtain ⟨price, m₂, h₂, h⟩ := bind_eq_ok h
    obtain ⟨hprice, rfl⟩ := require_eq_ok h₂
    obtain ⟨_, m₃, h₃, h⟩ := bind_eq_ok h
    obtain ⟨paid, rfl⟩ := charge_eq_ok_iff.mp h₃
    obtain ⟨now, m₄, h₄, h⟩ := bind_eq_ok h
    obtain ⟨rfl, rfl⟩ := get_eq_ok h₄
    obtain ⟨memory, m₅, h₅, h⟩ := bind_eq_ok h
    obtain ⟨hmemory, rfl⟩ := require_eq_ok h₅
    obtain ⟨_, m₆, h₆, h⟩ := bind_eq_ok h
    have hm₆ := modify_eq_ok h₆
    obtain ⟨rfl, rfl⟩ := pure_eq_ok h
    rw [Memory.expansionPrice_eq] at hprice
    rw [Memory.expand_eq] at hmemory
    split at hprice
    · rename_i bounded
      rw [if_pos bounded] at hmemory
      cases hprice
      cases hmemory
      exact ⟨⟨hindex, bounded, paid⟩, hm₆⟩
    · cases hprice

theorem growRange_eq_ok {address size : Word} {range : Nat × Nat}
    (h : growRange address size m = .ok range m') : RangeGrowth m address size range m' := by
  unfold growRange at h
  cases hsize : size.index? with
  | none =>
    rw [hsize] at h
    cases h
  | some count =>
    rw [hsize] at h
    cases count with
    | zero =>
      obtain ⟨rfl, rfl⟩ := pure_eq_ok h
      exact .empty hsize
    | succ count =>
      obtain ⟨start, m₁, h₁, h⟩ := bind_eq_ok h
      obtain ⟨can, rfl⟩ := grow_eq_ok h₁
      obtain ⟨rfl, rfl⟩ := pure_eq_ok h
      exact .range hsize (Nat.succ_ne_zero count) can

theorem requireCovered_apply {start size : Nat} (covered : m.memory.covers start size = true) :
    requireCovered start size m = .ok () m := by
  simp only [requireCovered, bind, EStateM.bind, get_apply, covered]
  rfl

theorem readMemory_apply {start size : Nat} (covered : m.memory.covers start size = true) :
    readMemory start size m = .ok (m.memory.slice start size) m := by
  simp only [readMemory, bind, EStateM.bind, requireCovered_apply covered, get_apply, pure_apply]

theorem writeMemory_apply {start : Nat} {bytes : Bytes}
    (covered : m.memory.covers start bytes.length = true) :
    writeMemory start bytes m = .ok () { m with memory := m.memory.write start bytes } := by
  simp only [writeMemory, bind, EStateM.bind, requireCovered_apply covered]
  rfl

theorem requireCovered_eq_ok {start size : Nat} {u : Unit}
    (h : requireCovered start size m = .ok u m') : m = m' := by
  obtain ⟨now, m₁, h₁, h⟩ := bind_eq_ok h
  obtain ⟨rfl, rfl⟩ := get_eq_ok h₁
  split at h
  · exact (pure_eq_ok h).2
  · cases h

theorem readMemory_eq_ok {start size : Nat} {bytes : Bytes}
    (h : readMemory start size m = .ok bytes m') :
    m.memory.slice start size = bytes ∧ m = m' := by
  obtain ⟨_, m₁, h₁, h⟩ := bind_eq_ok h
  obtain rfl := requireCovered_eq_ok h₁
  obtain ⟨now, m₂, h₂, h⟩ := bind_eq_ok h
  obtain ⟨rfl, rfl⟩ := get_eq_ok h₂
  exact pure_eq_ok h

theorem writeMemory_eq_ok {start : Nat} {bytes : Bytes} {u : Unit}
    (h : writeMemory start bytes m = .ok u m') :
    m' = { m with memory := m.memory.write start bytes } := by
  obtain ⟨_, m₁, h₁, h⟩ := bind_eq_ok h
  obtain rfl := requireCovered_eq_ok h₁
  exact modify_eq_ok h

/-- Making a range accessible leaves the stack alone. -/
theorem RangeGrowth.stack_eq {address size : Word} {range : Nat × Nat}
    (h : RangeGrowth m address size range m') : m'.stack = m.stack := by
  cases h with
  | empty zero => rfl
  | range counted pos can => rfl

theorem requireMutable_eq_ok {f : Frame} {u : Unit} (h : f.requireMutable m = .ok u m') :
    f.isStatic = false ∧ m = m' := by
  unfold Frame.requireMutable at h
  cases hstatic : f.isStatic with
  | true =>
    rw [hstatic] at h
    cases h
  | false =>
    rw [hstatic] at h
    exact ⟨rfl, (pure_eq_ok h).2⟩

/-- A jump that succeeds leads to a place that the table marks. -/
theorem jumpTo_eq_ok {f : Frame} {target : Word} {c : Control}
    (h : f.jumpTo target m = .ok c m') :
    ∃ goal, target.index? = some goal ∧ f.jumpTargets.getD goal false = true ∧
      c = .jump goal ∧ m = m' := by
  unfold Frame.jumpTo at h
  cases hindex : target.index? with
  | none =>
    rw [hindex] at h
    cases h
  | some goal =>
    simp only [hindex] at h
    split at h
    · rename_i hgoal
      obtain ⟨rfl, rfl⟩ := pure_eq_ok h
      exact ⟨goal, rfl, hgoal, rfl, rfl⟩
    · cases h

/-- A run that ends with output has found two operands, and paid for the range that they name. -/
theorem finish_eq_ok {reverts : Bool} {c : Control} (h : finish reverts m = .ok c m') :
    ∃ start size rest range, m.stack.items = start :: size :: rest ∧
      RangeGrowth (m.withItems rest) start size range m' ∧
      c = .finish reverts range.1 range.2 := by
  obtain ⟨start, size, rest, operands, h⟩ := pop_pop_eq_ok h
  obtain ⟨range, m₁, h₁, h⟩ := bind_eq_ok h
  have hgrowth := growRange_eq_ok h₁
  obtain ⟨rfl, rfl⟩ := pure_eq_ok h
  exact ⟨start, size, rest, range, operands, hgrowth, rfl⟩

/-! ## Whole instructions -/

/-- An instruction that does not fail has the effect that `Effect` tells of it. -/
theorem effect_of_perform {f : Frame} {offset : Nat} {i : Instruction} {c : Control}
    (h : perform f offset i m = .ok c m') : Effect f offset i m c m' := by
  cases i with
  | stop =>
    obtain ⟨rfl, rfl⟩ := pure_eq_ok h
    exact .stop
  | binary op =>
    obtain ⟨a, b, rest, operands, h⟩ := pop_pop_eq_ok h
    obtain ⟨room, rfl, rfl⟩ := push_next_eq_ok h
    exact .binary operands room
  | unary op =>
    obtain ⟨a, rest, operands, h⟩ := pop_bind_eq_ok h
    obtain ⟨room, rfl, rfl⟩ := push_next_eq_ok h
    exact .unary operands room
  | query op =>
    obtain ⟨now, m₁, h₁, h⟩ := bind_eq_ok h
    obtain ⟨rfl, rfl⟩ := get_eq_ok h₁
    obtain ⟨room, rfl, rfl⟩ := push_next_eq_ok h
    exact .query room
  | callDataLoad =>
    obtain ⟨start, rest, operands, h⟩ := pop_bind_eq_ok h
    obtain ⟨room, rfl, rfl⟩ := push_next_eq_ok h
    exact .callDataLoad operands room
  | pop =>
    obtain ⟨a, rest, operands, h⟩ := pop_bind_eq_ok h
    obtain ⟨rfl, rfl⟩ := pure_eq_ok h
    exact .pop operands
  | memoryLoad =>
    obtain ⟨address, rest, operands, h⟩ := pop_bind_eq_ok h
    obtain ⟨start, m₁, h₁, h⟩ := bind_eq_ok h
    obtain ⟨can, rfl⟩ := grow_eq_ok h₁
    obtain ⟨bytes, m₂, h₂, h⟩ := bind_eq_ok h
    obtain ⟨rfl, rfl⟩ := readMemory_eq_ok h₂
    obtain ⟨room, rfl, rfl⟩ := push_next_eq_ok h
    exact .memoryLoad operands ⟨can.index, can.bounded, can.paid⟩ room
  | memoryStore =>
    obtain ⟨address, value, rest, operands, h⟩ := pop_pop_eq_ok h
    obtain ⟨start, m₁, h₁, h⟩ := bind_eq_ok h
    obtain ⟨can, rfl⟩ := grow_eq_ok h₁
    obtain ⟨_, m₂, h₂, h⟩ := bind_eq_ok h
    obtain rfl := writeMemory_eq_ok h₂
    obtain ⟨rfl, rfl⟩ := pure_eq_ok h
    exact .memoryStore operands ⟨can.index, can.bounded, can.paid⟩
  | memoryStoreByte =>
    obtain ⟨address, value, rest, operands, h⟩ := pop_pop_eq_ok h
    obtain ⟨start, m₁, h₁, h⟩ := bind_eq_ok h
    obtain ⟨can, rfl⟩ := grow_eq_ok h₁
    obtain ⟨_, m₂, h₂, h⟩ := bind_eq_ok h
    obtain rfl := writeMemory_eq_ok h₂
    obtain ⟨rfl, rfl⟩ := pure_eq_ok h
    exact .memoryStoreByte operands ⟨can.index, can.bounded, can.paid⟩
  | storageLoad =>
    obtain ⟨key, rest, operands, h⟩ := pop_bind_eq_ok h
    obtain ⟨now, m₁, h₁, h⟩ := bind_eq_ok h
    obtain ⟨rfl, rfl⟩ := get_eq_ok h₁
    obtain ⟨room, rfl, rfl⟩ := push_next_eq_ok h
    exact .storageLoad operands room
  | storageStore =>
    obtain ⟨_, m₁, h₁, h⟩ := bind_eq_ok h
    obtain ⟨hmutable, rfl⟩ := requireMutable_eq_ok h₁
    obtain ⟨key, value, rest, operands, h⟩ := pop_pop_eq_ok h
    obtain ⟨now, m₂, h₂, h⟩ := bind_eq_ok h
    obtain ⟨rfl, rfl⟩ := get_eq_ok h₂
    obtain ⟨_, m₃, h₃, h⟩ := bind_eq_ok h
    obtain ⟨paid, rfl⟩ := charge_eq_ok_iff.mp h₃
    obtain ⟨_, m₄, h₄, h⟩ := bind_eq_ok h
    obtain rfl := modify_eq_ok h₄
    obtain ⟨rfl, rfl⟩ := pure_eq_ok h
    exact .storageStore hmutable operands rfl paid
  | jump =>
    obtain ⟨target, rest, operands, h⟩ := pop_bind_eq_ok h
    obtain ⟨goal, hindex, hgoal, rfl, rfl⟩ := jumpTo_eq_ok h
    exact .jump operands hindex hgoal
  | jumpIf =>
    obtain ⟨target, condition, rest, operands, h⟩ := pop_pop_eq_ok h
    cases hcondition : condition.isZero with
    | true =>
      rw [hcondition] at h
      obtain ⟨rfl, rfl⟩ := pure_eq_ok h
      exact .jumpIfPassed operands hcondition
    | false =>
      rw [hcondition] at h
      obtain ⟨goal, hindex, hgoal, rfl, rfl⟩ := jumpTo_eq_ok h
      exact .jumpIfTaken operands hcondition hindex hgoal
  | jumpDestination =>
    obtain ⟨rfl, rfl⟩ := pure_eq_ok h
    exact .jumpDestination
  | push size =>
    obtain ⟨room, rfl, rfl⟩ := push_next_eq_ok h
    exact .push room
  | dup n =>
    obtain ⟨_, m₁, h₁, h⟩ := bind_eq_ok h
    obtain ⟨stack, hdup, rfl⟩ := updateStack_eq_ok h₁
    obtain ⟨rfl, rfl⟩ := pure_eq_ok h
    obtain ⟨w, pos, operand, room, rfl⟩ := dup_eq_ok hdup
    exact .dup pos operand room
  | swap n =>
    obtain ⟨_, m₁, h₁, h⟩ := bind_eq_ok h
    obtain ⟨stack, hswap, rfl⟩ := updateStack_eq_ok h₁
    obtain ⟨rfl, rfl⟩ := pure_eq_ok h
    obtain ⟨items, exchanged, rfl⟩ := swap_eq_ok hswap
    exact .swap exchanged
  | log topics =>
    obtain ⟨_, m₁, h₁, h⟩ := bind_eq_ok h
    obtain ⟨hmutable, rfl⟩ := requireMutable_eq_ok h₁
    obtain ⟨start, size, rest₁, operands, h⟩ := pop_pop_eq_ok h
    obtain ⟨_, m₂, h₂, h⟩ := bind_eq_ok h
    obtain ⟨dropped, rest, hrest₁, hlength, rfl⟩ := popMany_eq_ok h₂
    have hrest₁ : rest₁ = dropped ++ rest := hrest₁
    rw [hrest₁] at operands
    cases hsize : size.index? with
    | none =>
      rw [hsize] at h
      cases h
    | some count =>
      rw [hsize] at h
      obtain ⟨_, m₃, h₃, h⟩ := bind_eq_ok h
      obtain ⟨paid, rfl⟩ := charge_eq_ok_iff.mp h₃
      obtain ⟨range, m₄, h₄, h⟩ := bind_eq_ok h
      have hgrowth := growRange_eq_ok h₄
      obtain ⟨rfl, rfl⟩ := pure_eq_ok h
      exact .log hmutable operands hlength hsize paid hgrowth
  | halt =>
    obtain ⟨start, size, rest, range, operands, hgrowth, rfl⟩ := finish_eq_ok h
    exact .halt operands hgrowth
  | revert =>
    obtain ⟨start, size, rest, range, operands, hgrowth, rfl⟩ := finish_eq_ok h
    exact .revert operands hgrowth
  | invalid => cases h
  | host op => cases h

/-- An instruction that may be executed is carried out if its price can be paid. -/
theorem executeAt_apply {f : Frame} {offset : Nat} {i : Instruction} (m : Machine)
    (hi : Instruction.executable? f.revision (f.opcodeAt offset) = some i) :
    f.executeAt offset m =
      if (i.price f.revision : Int) ≤ m.gas then
        perform f offset i { m with gas := m.gas - i.price f.revision }
      else .error .outOfGas m := by
  unfold Frame.executeAt
  simp only [hi, bind, EStateM.bind, charge_apply]
  by_cases paid : (i.price f.revision : Int) ≤ m.gas
  · simp only [if_pos paid]
  · simp only [if_neg paid]

/-- Where there is no instruction, nothing is paid. -/
theorem executeAt_of_none {f : Frame} {offset : Nat} (m : Machine)
    (hi : Instruction.executable? f.revision (f.opcodeAt offset) = none) :
    f.executeAt offset m = .error .undefinedInstruction m := by
  unfold Frame.executeAt
  rw [hi]
  rfl

/-- Two frames do the same at an offset if the same instruction may be executed there, which costs
the same and does the same once it is paid for. -/
theorem executeAt_congr {f g : Frame} {offset : Nat} {m : Machine}
    (same : Instruction.executable? g.revision (g.opcodeAt offset) =
      Instruction.executable? f.revision (f.opcodeAt offset))
    (price : ∀ i, Instruction.executable? f.revision (f.opcodeAt offset) = some i →
      i.price g.revision = i.price f.revision)
    (performed : ∀ i, Instruction.executable? f.revision (f.opcodeAt offset) = some i →
      (i.price f.revision : Int) ≤ m.gas →
        perform g offset i { m with gas := m.gas - i.price f.revision } =
          perform f offset i { m with gas := m.gas - i.price f.revision }) :
    g.executeAt offset m = f.executeAt offset m := by
  cases hi : Instruction.executable? f.revision (f.opcodeAt offset) with
  | none => rw [executeAt_of_none m hi, executeAt_of_none m (same.trans hi)]
  | some i =>
    rw [executeAt_apply m hi, executeAt_apply m (same.trans hi), price i hi]
    by_cases paid : (i.price f.revision : Int) ≤ m.gas
    · rw [if_pos paid, if_pos paid, performed i hi paid]
    · rw [if_neg paid, if_neg paid]

/-- An executed instruction has been paid for, and has the effect that `Effect` tells of it. -/
theorem effect_of_executeAt {f : Frame} {offset : Nat} {c : Control}
    (h : f.executeAt offset m = .ok c m') :
    ∃ i, Instruction.ofByte? (f.opcodeAt offset) = some i ∧
      (i.price f.revision : Int) ≤ m.gas ∧
      Effect f offset i { m with gas := m.gas - i.price f.revision } c m' := by
  obtain ⟨i, hi, paid, h⟩ := executeAt_eq_ok h
  exact ⟨i, Instruction.ofByte?_of_executable? hi, paid, effect_of_perform h⟩

/-- Behind the code there is nothing that would go on. -/
theorem offset_lt_of_next {f : Frame} {offset : Nat} (h : f.executeAt offset m = .ok .next m') :
    offset < f.code.size := by
  obtain ⟨i, hi, -, effect⟩ := effect_of_executeAt h
  refine Nat.lt_of_not_le fun hbehind => ?_
  have hzero : f.opcodeAt offset = 0 := by
    unfold Frame.opcodeAt
    simp [Nat.not_lt.mpr hbehind]
  rw [hzero] at hi
  obtain rfl : Instruction.stop = i := Option.some.inj hi
  cases effect

/-- An instruction that jumps leads to a place that the table marks. -/
theorem Effect.destination {f : Frame} {offset goal : Nat} {i : Instruction}
    (h : Effect f offset i m (.jump goal) m') : f.jumpTargets.getD goal false = true := by
  cases h with
  | jump operands index destination => exact destination
  | jumpIfTaken operands holds index destination => exact destination

/-- A jump leads into the table of jump destinations. -/
theorem target_lt_of_jump {f : Frame} {offset target : Nat}
    (h : f.executeAt offset m = .ok (.jump target) m') : target < f.jumpTargets.size := by
  obtain ⟨i, -, -, effect⟩ := effect_of_executeAt h
  have hdestination := effect.destination
  refine Nat.lt_of_not_le fun hbehind => ?_
  simp [Nat.not_lt.mpr hbehind] at hdestination

end EvmDispatch.Machine
