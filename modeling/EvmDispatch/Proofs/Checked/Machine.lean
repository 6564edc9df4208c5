import EvmDispatch.Proofs.Checked.Parts
import EvmDispatch.Proofs.Machine.Effect

/-!
# The machine with checked operations

The instructions again, and the actions that they are put together from, with every number, index
and range checked. A `Guarded` action may end by a trap besides what an action may end by. While the
gas is a number of 64 bits and the memory has at most `Memory.maxSize` bytes, which is what `Sound`
says, a guarded instruction does what the instruction does (`Agrees.of_executeAt`), and leaves such
a state whether it fails or not.
-/

namespace EvmDispatch

/-- The code, the call data and the table of a frame have sizes that a sequence of bytes in an
address space of 64 bits can have. -/
structure Frame.Addressable (f : Frame) : Prop where
  code : f.code.size < 2 ^ 63
  input : f.input.length < 2 ^ 63
  jumpTargets : f.jumpTargets.size < 2 ^ 63

/-- What ends a guarded action early. -/
inductive Stop where
  /-- The instruction fails, as it may. -/
  | fault (status : Status)
  /-- An operation has no result. -/
  | trap (reason : Trap)

/-- A change of the state that may fail or trap. -/
abbrev Guarded := EStateM Stop Machine

namespace Guarded

open Machine (stateOf)

variable {α β : Type}

/-! ## Guarded instructions -/

/-- An action in which nothing can trap. -/
def lift (x : Action α) : Guarded α := x.adaptExcept .fault

/-- Traps if an operation does. -/
def check : Except Trap α → Guarded α
  | .ok a => pure a
  | .error reason => throw (.trap reason)

/-- Pays for something. An amount that is no number of the gas is never there. -/
def charge (amount : Nat) : Guarded Unit := do
  let m ← get
  if amount < 2 ^ 63 ∧ (amount : Int) ≤ m.gas then
    let gas ← check (Checked.signed64 (m.gas - amount))
    set { m with gas }
  else throw (.fault .outOfGas)

/-- Pays for the data of a log entry. A price that is no number of 64 bits is never there. -/
def chargeData (size : Word) : Guarded Unit :=
  match size.index? with
  | some count =>
    if logDataPrice count < 2 ^ 64 then charge (logDataPrice count) else throw (.fault .outOfGas)
  | none => throw (.fault .outOfGas)

def updateStack (change : Stack → Except Trap (Except Status Stack)) : Guarded Unit := do
  let result ← check (change (← get).stack)
  let stack ← lift (Machine.require result)
  modify fun m => { m with stack }

def grow (offset : Word) (size : Nat) : Guarded Nat := do
  match offset.index? with
  | some start =>
    let price ← check (Checked.expansionPrice (← get).memory start size)
    charge (← lift (Machine.require price))
    let memory ← check (Checked.expand (← get).memory start size)
    modify fun m => { m with memory }
    return start
  | none => throw (.fault .outOfGas)

def growRange (offset size : Word) : Guarded (Nat × Nat) := do
  match size.index? with
  | some 0 => return (0, 0)
  | some count => return (← grow offset count, count)
  | none => throw (.fault .outOfGas)

def readMemory (offset size : Nat) : Guarded Bytes := do
  check (Checked.slice (← get).memory offset size)

def writeMemory (offset : Nat) (bytes : Bytes) : Guarded Unit := do
  let memory ← check (Checked.write (← get).memory offset bytes)
  modify fun m => { m with memory }

def finish (reverts : Bool) : Guarded Control := do
  let offset ← lift Machine.pop
  let size ← lift Machine.pop
  let range ← growRange offset size
  return .finish reverts range.1 range.2

/-- The property that an instruction asks for. The gas must not be negative. -/
def query (f : Frame) (offset : Nat) (m : Machine) : QueryInstruction → Except Trap Word
  | .address => Checked.ofSlice f.callee.bytes
  | .caller => Checked.ofSlice f.caller.bytes
  | .callDataSize => do return .ofNat (← Checked.unsigned 64 f.input.length)
  | .codeSize => do return .ofNat (← Checked.unsigned 64 f.code.size)
  | .pc => do return .ofNat (← Checked.unsigned 64 offset)
  | .memorySize => do return .ofNat (← Checked.unsigned 64 m.memory.size)
  | .gas => if 0 ≤ m.gas then .ok (.ofNat m.gas.toNat) else .error .overflow

def perform (f : Frame) (offset : Nat) : Instruction → Guarded Control
  | .binary op => do
    let a ← lift Machine.pop
    let b ← lift Machine.pop
    let w ← check (Checked.eval op a b)
    lift (Machine.push w)
    return .next
  | .query op => do
    let w ← check (query f offset (← get) op)
    lift (Machine.push w)
    return .next
  | .callDataLoad => do
    let start ← lift Machine.pop
    let w ← check (Checked.loadPadded f.input start)
    lift (Machine.push w)
    return .next
  | .memoryLoad => do
    let start ← grow (← lift Machine.pop) 32
    let w ← check (Checked.ofSlice (← readMemory start 32))
    lift (Machine.push w)
    return .next
  | .memoryStore => do
    let target ← lift Machine.pop
    let value ← lift Machine.pop
    let start ← grow target 32
    writeMemory start (← check (Checked.toBytes value))
    return .next
  | .memoryStoreByte => do
    let target ← lift Machine.pop
    let value ← lift Machine.pop
    writeMemory (← grow target 1) [value.lowByte]
    return .next
  | .storageStore => do
    lift f.requireMutable
    let key ← lift Machine.pop
    let value ← lift Machine.pop
    let current := (← get).storage.load key
    charge (storePrice (current.isZero && !value.isZero))
    modify fun m => { m with storage := m.storage.store key value }
    return .next
  | .push size => do
    let w ← check (Checked.immediate f.code.toList offset size)
    lift (Machine.push w)
    return .next
  | .dup n => do
    updateStack fun s => Checked.dup s n
    return .next
  | .swap n => do
    updateStack fun s => Checked.swap s n
    return .next
  | .log topics => do
    lift f.requireMutable
    let start ← lift Machine.pop
    let size ← lift Machine.pop
    lift (Machine.popMany topics)
    chargeData size
    let _ ← growRange start size
    return .next
  | .halt => finish false
  | .revert => finish true
  | i => lift (Machine.perform f offset i)

def executeAt (f : Frame) (offset : Nat) : Guarded Control := do
  match ← check (Checked.instruction? (f.opcodeAt offset)) with
  | some i =>
    if i = .invalid ∨ ¬ i.introducedIn ≤ f.revision then throw (.fault .undefinedInstruction)
    else
      charge (← check (Checked.price f.revision i))
      perform f offset i
  | none => throw (.fault .undefinedInstruction)

/-! ## Agreement -/

/-- What the state has to be for nothing to trap. -/
structure Sound (m : Machine) : Prop where
  aligned : 32 ∣ m.memory.size
  bounded : m.memory.size ≤ Memory.maxSize
  gas_ge : -2 ^ 63 ≤ m.gas
  gas_lt : m.gas < 2 ^ 63

/-- A sound machine stays sound when its memory grows by a range that ends where it may. -/
theorem Sound.expanded {m : Machine} (hm : Sound m) {start size : Nat}
    (bounded : size = 0 ∨ start + size ≤ Memory.maxSize) :
    Sound { m with memory := m.memory.expanded start size } where
  aligned := Memory.dvd_size_expanded hm.aligned
  bounded := by
    have hsize := hm.bounded
    unfold Memory.expanded Memory.wordsFor Memory.maxSize at *
    split
    · show 32 * ((start + size + 31) / 32) ≤ 0x100000000
      omega
    · exact hsize
  gas_ge := hm.gas_ge
  gas_lt := hm.gas_lt

/-- A guarded action does what an action does to a machine, which leaves a sound one. -/
structure Agrees (x : Guarded α) (y : Action α) (m : Machine) : Prop where
  apply : x m = lift y m
  sound : Sound (stateOf (y m))

/-- An action touches neither the memory nor the gas, whether it fails or not. -/
def Quiet (y : Action α) : Prop :=
  ∀ m, (stateOf (y m)).memory = m.memory ∧ (stateOf (y m)).gas = m.gas

namespace Quiet

theorem bind {y : Action α} {g : α → Action β} (first : Quiet y) (rest : ∀ a, Quiet (g a)) :
    Quiet (y >>= g) := by
  intro m
  have hfirst := first m
  simp only [Bind.bind, EStateM.bind]
  cases hy : y m with
  | error status m' => simpa [hy, stateOf] using hfirst
  | ok a m' =>
    have hrest := rest a m'
    rw [hy] at hfirst
    exact ⟨hrest.1.trans hfirst.1, hrest.2.trans hfirst.2⟩

theorem of_require (x : Except Status α) : Quiet (Machine.require x) := by
  cases x with
  | ok a => exact fun _ => ⟨rfl, rfl⟩
  | error status => exact fun _ => ⟨rfl, rfl⟩

theorem stackLaw : Machine.StackLaw fun _ y => Quiet y where
  pure _ := fun _ => ⟨rfl, rfl⟩
  throw _ := fun _ => ⟨rfl, rfl⟩
  bind := bind
  read _ rest := fun m => rest m m
  changeStack _ := fun _ => ⟨rfl, rfl⟩

end Quiet

namespace Agrees

variable {m : Machine}

theorem of_pure (a : α) (hm : Sound m) : Agrees (pure a) (pure a) m := ⟨rfl, hm⟩

theorem of_throw (status : Status) (hm : Sound m) :
    Agrees (throw (.fault status) : Guarded α) (throw status) m :=
  ⟨rfl, hm⟩

theorem of_get (hm : Sound m) : Agrees get get m := ⟨rfl, hm⟩

theorem of_modify {change : Machine → Machine} (hm : Sound (change m)) :
    Agrees (modify change) (modify change) m :=
  ⟨rfl, hm⟩

/-- An action that touches neither the memory nor the gas agrees with itself. -/
theorem of_lift {y : Action α} (quiet : Quiet y) (hm : Sound m) : Agrees (lift y) y m := by
  obtain ⟨hmemory, hgas⟩ := quiet m
  refine ⟨rfl, ?_⟩
  constructor
  · rw [hmemory]
    exact hm.aligned
  · rw [hmemory]
    exact hm.bounded
  · rw [hgas]
    exact hm.gas_ge
  · rw [hgas]
    exact hm.gas_lt

/-- One action after another agrees with the unguarded ones, if the second does from every sound
state that the first can leave. -/
theorem bind {x : Guarded α} {y : Action α} {f : α → Guarded β} {g : α → Action β}
    (first : Agrees x y m)
    (rest : ∀ a m', y m = .ok a m' → Sound m' → Agrees (f a) (g a) m') :
    Agrees (x >>= f) (y >>= g) m := by
  obtain ⟨happly, hsound⟩ := first
  unfold lift EStateM.adaptExcept at happly
  cases hy : y m with
  | error status m' =>
    rw [hy] at happly hsound
    have hbind : (y >>= g) m = .error status m' := by simp [Bind.bind, EStateM.bind, hy]
    refine ⟨?_, by rw [hbind]; exact hsound⟩
    simp [Bind.bind, EStateM.bind, lift, EStateM.adaptExcept, happly, hy]
  | ok a m' =>
    rw [hy] at happly hsound
    have hbind : (y >>= g) m = g a m' := by simp [Bind.bind, EStateM.bind, hy]
    obtain ⟨hrest, hsound'⟩ := rest a m' hy hsound
    refine ⟨?_, by rw [hbind]; exact hsound'⟩
    simpa [Bind.bind, EStateM.bind, lift, EStateM.adaptExcept, happly, hy] using hrest

/-- An operation that does not trap is not seen. -/
theorem of_check {c : Except Trap α} {a : α} {f : α → Guarded β} {y : Action β} (h : c = .ok a)
    (rest : Agrees (f a) y m) : Agrees (check c >>= f) y m := by
  rw [h]
  exact rest

/-- What is not there cannot be paid, whatever it is taken for. -/
theorem of_throw_outOfGas {amount : Nat} (hpaid : ¬(amount : Int) ≤ m.gas) (hm : Sound m) :
    Agrees (throw (.fault .outOfGas)) (Machine.charge amount) m := by
  have hmodel : Machine.charge amount m = .error .outOfGas m := by
    rw [Machine.charge_apply, if_neg hpaid]
  refine ⟨by rw [lift, EStateM.adaptExcept, hmodel]; rfl, ?_⟩
  rw [hmodel]
  exact hm

/-- Paying agrees, because what is paid is no more than the gas. -/
theorem of_charge (amount : Nat) (hm : Sound m) :
    Agrees (charge amount) (Machine.charge amount) m := by
  have hge := hm.gas_ge
  have hlt := hm.gas_lt
  by_cases hpaid : (amount : Int) ≤ m.gas
  · have hsigned : Checked.signed64 (m.gas - amount) = .ok (m.gas - amount) :=
      Checked.signed64_eq (by omega)
    have hcharge : charge amount m = .ok () { m with gas := m.gas - amount } := by
      have hamount : amount < 2 ^ 63 := by omega
      unfold charge
      show (if amount < 2 ^ 63 ∧ (amount : Int) ≤ m.gas then _ else _ : Guarded Unit) m = _
      rw [if_pos ⟨hamount, hpaid⟩, hsigned]
      rfl
    have hmodel : Machine.charge amount m = .ok () { m with gas := m.gas - amount } := by
      rw [Machine.charge_apply, if_pos hpaid]
    refine ⟨by rw [hcharge, lift, EStateM.adaptExcept, hmodel], ?_⟩
    rw [hmodel]
    have hrest : -2 ^ 63 ≤ m.gas - amount ∧ m.gas - amount < 2 ^ 63 := by omega
    exact ⟨hm.aligned, hm.bounded, hrest.1, hrest.2⟩
  · have hcharge : charge amount m = (throw (.fault .outOfGas) : Guarded Unit) m := by
      unfold charge
      show (if amount < 2 ^ 63 ∧ (amount : Int) ≤ m.gas then _ else _ : Guarded Unit) m = _
      rw [if_neg (fun h => hpaid h.2)]
    obtain ⟨happly, hsound⟩ := of_throw_outOfGas hpaid hm
    exact ⟨hcharge.trans happly, hsound⟩

theorem of_updateStack {change : Stack → Except Trap (Except Status Stack)}
    {change' : Stack → Except Status Stack} (h : ∀ stack, change stack = .ok (change' stack))
    (hm : Sound m) : Agrees (updateStack change) (Machine.updateStack change') m := by
  refine .bind (of_get hm) fun now m₁ _ s₁ => of_check (h _) ?_
  refine .bind (of_lift (.of_require _) s₁) fun stack m₂ _ s₂ => of_modify ?_
  exact ⟨s₂.aligned, s₂.bounded, s₂.gas_ge, s₂.gas_lt⟩

/-- Growing the memory agrees: no price overflows, and the range ends where the memory may reach. -/
theorem of_grow (address : Word) (size : Nat) (hm : Sound m) :
    Agrees (grow address size) (Machine.grow address size) m := by
  unfold grow Machine.grow
  cases address.index? with
  | none => exact of_throw _ hm
  | some start =>
    refine .bind (of_get hm) fun now m₁ h₁ _ => ?_
    obtain ⟨rfl, rfl⟩ := Machine.get_eq_ok h₁
    refine of_check (Checked.expansionPrice_eq hm.bounded start size) ?_
    refine .bind (of_lift (.of_require _) hm) fun price m₂ h₂ _ => ?_
    obtain ⟨hprice, rfl⟩ := Machine.require_eq_ok h₂
    -- a price means that the access ends inside the greatest memory, and so it can be made possible
    have bounded : size = 0 ∨ start + size ≤ Memory.maxSize := by
      rw [Memory.expansionPrice_eq] at hprice
      split at hprice
      · assumption
      · cases hprice
    refine .bind (of_charge price hm) fun _ m₃ h₃ s₃ => ?_
    obtain ⟨-, rfl⟩ := Machine.charge_eq_ok_iff.mp h₃
    refine .bind (of_get s₃) fun now m₄ h₄ _ => ?_
    obtain ⟨rfl, rfl⟩ := Machine.get_eq_ok h₄
    refine of_check (Checked.expand_eq _ bounded) ?_
    rw [Memory.expand_eq, if_pos bounded]
    exact .bind (of_modify (s₃.expanded bounded)) fun _ m₅ _ s₅ => of_pure _ s₅

theorem of_growRange (address size : Word) (hm : Sound m) :
    Agrees (growRange address size) (Machine.growRange address size) m := by
  unfold growRange Machine.growRange
  cases size.index? with
  | none => exact of_throw _ hm
  | some count =>
    cases count with
    | zero => exact of_pure _ hm
    | succ count => exact .bind (of_grow address _ hm) fun start m₁ _ s₁ => of_pure _ s₁

/-- A covered range is read without a trap. -/
theorem of_readMemory {offset size : Nat} (covered : m.memory.covers offset size = true)
    (hm : Sound m) : Agrees (readMemory offset size) (Machine.readMemory offset size) m := by
  have hmodel := Machine.readMemory_apply covered
  have hguarded : readMemory offset size m = .ok (m.memory.slice offset size) m := by
    have hread : readMemory offset size m = check (Checked.slice m.memory offset size) m := rfl
    rw [hread, Checked.slice_eq hm.bounded covered]
    rfl
  refine ⟨by rw [hguarded, lift, EStateM.adaptExcept, hmodel], ?_⟩
  rw [hmodel]
  exact hm

theorem of_writeMemory {offset : Nat} {bytes : Bytes}
    (covered : offset + bytes.length ≤ m.memory.size) (hm : Sound m) :
    Agrees (writeMemory offset bytes) (Machine.writeMemory offset bytes) m := by
  have hcovers : m.memory.covers offset bytes.length = true := by
    unfold Memory.covers
    rw [decide_eq_true covered, Bool.or_true]
  have hmodel := Machine.writeMemory_apply hcovers
  refine ⟨?_, ?_⟩
  · have hwrite : writeMemory offset bytes m =
        (check (Checked.write m.memory offset bytes) >>= fun memory =>
          modify fun m => { m with memory }) m := rfl
    rw [hwrite, Checked.write_eq hm.bounded covered, lift, EStateM.adaptExcept, hmodel]
    rfl
  · rw [hmodel]
    exact ⟨hm.aligned, hm.bounded, hm.gas_ge, hm.gas_lt⟩

theorem of_finish (reverts : Bool) (hm : Sound m) :
    Agrees (finish reverts) (Machine.finish reverts) m := by
  refine .bind (of_lift Quiet.stackLaw.of_pop hm) fun offset m₁ _ s₁ => ?_
  refine .bind (of_lift Quiet.stackLaw.of_pop s₁) fun size m₂ _ s₂ => ?_
  exact .bind (of_growRange offset size s₂) fun range m₃ _ s₃ => of_pure _ s₃

/-- A property of the frame is a number of 64 bits, and so is the gas while it is not negative. -/
theorem query_eq {f : Frame} {offset : Nat} (hf : f.Addressable) (hoffset : offset < 2 ^ 64 - 64)
    (hm : Sound m) (hgas : 0 ≤ m.gas) (op : QueryInstruction) :
    query f offset m op = .ok (op.eval f offset m) := by
  have hcode := hf.code
  have hinput := hf.input
  have hmemory := hm.bounded
  unfold Memory.maxSize at hmemory
  cases op with
  | address => exact Checked.ofSlice_eq f.callee.bytes
  | caller => exact Checked.ofSlice_eq f.caller.bytes
  | callDataSize =>
    rw [query, Checked.unsigned_eq (by omega)]
    rfl
  | codeSize =>
    rw [query, Checked.unsigned_eq (by omega)]
    rfl
  | pc =>
    rw [query, Checked.unsigned_eq (by omega)]
    rfl
  | memorySize =>
    rw [query, Checked.unsigned_eq (by omega)]
    rfl
  | gas =>
    rw [query, if_pos hgas]
    rfl

theorem of_push (w : Word) (hm : Sound m) :
    Agrees (lift (Machine.push w) >>= fun _ => pure .next : Guarded Control)
      (Machine.push w >>= fun _ => pure .next) m :=
  .bind (of_lift (Quiet.stackLaw.of_push w) hm) fun _ _ _ s₁ => of_pure _ s₁

/-- A guarded instruction does what the instruction does. -/
theorem of_perform {f : Frame} {offset : Nat} {i : Instruction} (hf : f.Addressable)
    (hoffset : offset < 2 ^ 64 - 64) (hi : Instruction.ofByte? (f.opcodeAt offset) = some i)
    (hm : Sound m) (hgas : 0 ≤ m.gas) :
    Agrees (perform f offset i) (Machine.perform f offset i) m := by
  have quiet := Quiet.stackLaw
  cases i with
  | stop => exact of_pure _ hm
  | binary op =>
    refine .bind (of_lift quiet.of_pop hm) fun a m₁ _ s₁ => ?_
    refine .bind (of_lift quiet.of_pop s₁) fun b m₂ _ s₂ => ?_
    exact of_check (Checked.eval_eq op a b) (of_push _ s₂)
  | unary op =>
    exact of_lift (quiet.bind quiet.of_pop fun _ => quiet.bind (quiet.of_push _) fun _ =>
      quiet.pure _) hm
  | query op =>
    refine .bind (of_get hm) fun now m₁ h₁ _ => ?_
    obtain ⟨rfl, rfl⟩ := Machine.get_eq_ok h₁
    exact of_check (query_eq hf hoffset hm hgas op) (of_push _ hm)
  | callDataLoad =>
    have hinput := hf.input
    refine .bind (of_lift quiet.of_pop hm) fun start m₁ _ s₁ => ?_
    exact of_check (Checked.loadPadded_eq (by omega) start) (of_push _ s₁)
  | pop => exact of_lift (quiet.bind quiet.of_pop fun _ => quiet.pure _) hm
  | memoryLoad =>
    refine .bind (of_lift quiet.of_pop hm) fun address m₁ _ s₁ => ?_
    refine .bind (of_grow address 32 s₁) fun start m₂ h₂ s₂ => ?_
    obtain ⟨-, rfl⟩ := Machine.grow_eq_ok h₂
    refine .bind (of_readMemory (m₁.memory.covers_expanded start 32) s₂) fun bytes m₃ _ s₃ => ?_
    exact of_check (Checked.ofSlice_eq bytes) (of_push _ s₃)
  | memoryStore =>
    refine .bind (of_lift quiet.of_pop hm) fun target m₁ _ s₁ => ?_
    refine .bind (of_lift quiet.of_pop s₁) fun value m₂ _ s₂ => ?_
    refine .bind (of_grow target 32 s₂) fun start m₃ h₃ s₃ => ?_
    obtain ⟨-, rfl⟩ := Machine.grow_eq_ok h₃
    have hcovers := m₂.memory.covers_expanded start 32
    refine of_check (Checked.toBytes_eq value) ?_
    refine .bind (of_writeMemory ?_ s₃) fun _ m₄ _ s₄ => of_pure _ s₄
    simpa [Memory.covers, value.length_toBytes, Machine.grown] using hcovers
  | memoryStoreByte =>
    refine .bind (of_lift quiet.of_pop hm) fun target m₁ _ s₁ => ?_
    refine .bind (of_lift quiet.of_pop s₁) fun value m₂ _ s₂ => ?_
    refine .bind (of_grow target 1 s₂) fun start m₃ h₃ s₃ => ?_
    obtain ⟨-, rfl⟩ := Machine.grow_eq_ok h₃
    have hcovers := m₂.memory.covers_expanded start 1
    refine .bind (of_writeMemory ?_ s₃) fun _ m₄ _ s₄ => of_pure _ s₄
    simpa [Memory.covers, Machine.grown] using hcovers
  | storageLoad =>
    exact of_lift (quiet.bind quiet.of_pop fun _ => quiet.read (fun _ _ => rfl) fun _ =>
      quiet.bind (quiet.of_push _) fun _ => quiet.pure _) hm
  | storageStore =>
    refine .bind (of_lift (quiet.of_requireMutable f) hm) fun _ m₁ _ s₁ => ?_
    refine .bind (of_lift quiet.of_pop s₁) fun key m₂ _ s₂ => ?_
    refine .bind (of_lift quiet.of_pop s₂) fun value m₃ _ s₃ => ?_
    refine .bind (of_get s₃) fun now m₄ _ s₄ => ?_
    refine .bind (of_charge _ s₄) fun _ m₅ _ s₅ => ?_
    refine .bind (of_modify ?_) fun _ m₆ _ s₆ => of_pure _ s₆
    exact ⟨s₅.aligned, s₅.bounded, s₅.gas_ge, s₅.gas_lt⟩
  | jump => exact of_lift (quiet.bind quiet.of_pop fun _ => quiet.of_jumpTo f _) hm
  | jumpIf =>
    refine of_lift (quiet.bind quiet.of_pop fun target => quiet.bind quiet.of_pop
      fun condition => ?_) hm
    split
    · exact quiet.pure _
    · exact quiet.of_jumpTo f target
  | jumpDestination => exact of_pure _ hm
  | push size =>
    have hsize := Instruction.size_le_of_ofByte? hi
    exact of_check (Checked.immediate_eq f hoffset hsize) (of_push _ hm)
  | dup n =>
    exact .bind (of_updateStack (fun stack => Checked.dup_eq stack n) hm) fun _ m₁ _ s₁ =>
      of_pure _ s₁
  | swap n =>
    exact .bind (of_updateStack (fun stack => Checked.swap_eq stack n) hm) fun _ m₁ _ s₁ =>
      of_pure _ s₁
  | log topics =>
    refine .bind (of_lift (quiet.of_requireMutable f) hm) fun _ m₁ _ s₁ => ?_
    refine .bind (of_lift quiet.of_pop s₁) fun start m₂ _ s₂ => ?_
    refine .bind (of_lift quiet.of_pop s₂) fun size m₃ _ s₃ => ?_
    refine .bind (of_lift (quiet.of_popMany topics) s₃) fun _ m₄ _ s₄ => ?_
    unfold chargeData
    cases size.index? with
    | none => exact .bind (of_throw _ s₄) fun _ m₅ h₅ _ => by cases h₅
    | some count =>
      have hgrow : ∀ m₅, Sound m₅ →
          Agrees (growRange start size >>= fun _ => pure .next : Guarded Control)
            (Machine.growRange start size >>= fun _ => pure .next) m₅ :=
        fun m₅ s₅ => .bind (of_growRange start size s₅) fun _ _ _ s₆ => of_pure _ s₆
      by_cases hprice : logDataPrice count < 2 ^ 64
      · simp only [if_pos hprice]
        exact .bind (of_charge _ s₄) fun _ m₅ _ s₅ => hgrow m₅ s₅
      · have hlt := s₄.gas_lt
        simp only [if_neg hprice]
        exact .bind (of_throw_outOfGas (by omega) s₄) fun _ m₅ _ s₅ => hgrow m₅ s₅
  | halt => exact of_finish false hm
  | revert => exact of_finish true hm
  | invalid => exact of_throw _ hm
  | host op => exact of_throw _ hm

/-- Every guarded instruction does what the instruction does, wherever it stands in the code. -/
theorem of_executeAt {f : Frame} {offset : Nat} (hf : f.Addressable)
    (hoffset : offset < 2 ^ 64 - 64) (hm : Sound m) :
    Agrees (executeAt f offset) (f.executeAt offset) m := by
  unfold executeAt Frame.executeAt Instruction.executable? Instruction.ofOpcode?
  refine of_check (Checked.instruction?_eq _) ?_
  cases hbyte : Instruction.ofByte? (f.opcodeAt offset) with
  | none => exact of_throw _ hm
  | some i =>
    by_cases hrefused : i = .invalid ∨ ¬i.introducedIn ≤ f.revision
    · have hnone : ((some i).filter fun i => decide (i.introducedIn ≤ f.revision)).filter
          (· != .invalid) = none := by
        rcases hrefused with rfl | hlater
        · simp [Option.filter_eq_none_iff]
        · simp [Option.filter, hlater]
      simp only [if_pos hrefused, hnone]
      exact of_throw _ hm
    · have hsome : ((some i).filter fun i => decide (i.introducedIn ≤ f.revision)).filter
          (· != .invalid) = some i := by
        rw [not_or, not_not] at hrefused
        simp [Option.filter, hrefused]
      simp only [if_neg hrefused, hsome]
      refine of_check (Checked.price_eq f.revision hbyte) ?_
      refine .bind (of_charge _ hm) fun _ m₁ h₁ s₁ => ?_
      obtain ⟨paid, rfl⟩ := Machine.charge_eq_ok_iff.mp h₁
      exact of_perform hf hoffset hbyte s₁ (Int.sub_nonneg_of_le paid)

end Agrees

end Guarded

end EvmDispatch
