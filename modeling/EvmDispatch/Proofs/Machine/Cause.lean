import EvmDispatch.Proofs.Machine.Faults
import EvmDispatch.Proofs.Machine.Replay
import EvmDispatch.Proofs.Machine.StaticFrame

/-!
# Why an instruction fails

`Effect` tells what an instruction does that does not fail. `Fault` is the other half: it tells why
one fails, and that the stack is then no higher than before. An instruction fails because there is
none, because its price cannot be paid, or by a `Cause` of its own. Which causes there are for an
instruction is read off the definitions once, in `cause_of_perform`.
-/

namespace EvmDispatch

namespace Instruction

/-- The number of items that an instruction has to find on the stack. -/
def needs : Instruction → Nat
  | dup n => n
  | swap n => n + 1
  | i => i.takes

/-- Whether the stack is higher after the instruction. -/
def raises (i : Instruction) : Bool := i.pushesValue && i.takes == 0

/-- Copies and exchanges count their item from one. -/
theorem pos_of_ofByte? {opcode : UInt8} {i : Instruction} (h : ofByte? opcode = some i) :
    i ≠ .dup 0 ∧ i ≠ .swap 0 := by
  have hcounted : (i != .dup 0 && i != .swap 0) = true :=
    of_ofByte? (fun i => i != .dup 0 && i != .swap 0) (by decide +kernel) h
  simpa using hcounted

/-- What may be executed is defined by the revision, and is not the instruction that fails on
purpose. -/
theorem executable?_eq_some_iff {r : Revision} {opcode : UInt8} {i : Instruction} :
    executable? r opcode = some i ↔ ofOpcode? r opcode = some i ∧ i ≠ .invalid := by
  simp [executable?, Option.filter_eq_some_iff]

/-- The opcode of the instruction that fails on purpose. -/
theorem eq_invalid_iff {opcode : UInt8} {i : Instruction} (h : ofByte? opcode = some i) :
    i = .invalid ↔ opcode = 0xfe := by
  have hmatrix := of_opcode (fun opcode i => decide (i = .invalid ↔ opcode = 0xfe))
    (by decide +kernel) h
  exact of_decide_eq_true hmatrix

theorem ofByte?_of_ofOpcode? {r : Revision} {opcode : UInt8} {i : Instruction}
    (h : ofOpcode? r opcode = some i) : ofByte? opcode = some i :=
  (Option.filter_eq_some_iff.mp h).1

/-- What may not be executed is that instruction, and what the revision does not define. -/
theorem executable?_eq_none_iff {r : Revision} {opcode : UInt8} :
    executable? r opcode = none ↔ opcode = 0xfe ∨ ofOpcode? r opcode = none := by
  cases hi : ofOpcode? r opcode with
  | none => simp [executable?, hi]
  | some i =>
    rw [← eq_invalid_iff (ofByte?_of_ofOpcode? hi)]
    simp [executable?, hi]

end Instruction

/-- An exchange needs its item and everything above it. -/
theorem Stack.exchange?_eq_none_iff {n : Nat} (pos : n ≠ 0) {items : List Word} :
    Stack.exchange? n items = none ↔ items.length < n + 1 := by
  cases items with
  | nil => simp [Stack.exchange?]
  | cons w rest =>
    rw [Stack.exchange?, if_neg pos, Option.map_eq_none_iff, List.getElem?_eq_none_iff,
      List.length_cons]
    omega

namespace Machine

variable {α β : Type} {f : Frame} {offset : Nat} {m m' : Machine} {status : Status}

/-- Why an instruction can fail that has been paid for, with a stack that is not too high. -/
inductive Cause (f : Frame) (s : Stack) : Instruction → Status → Prop where
  | underflow {i : Instruction} (few : s.depth < i.needs) : Cause f s i .stackUnderflow
  | overflow {i : Instruction} (raises : i.raises) (enough : i.needs ≤ s.depth)
    (full : s.limit ≤ s.depth) : Cause f s i .stackOverflow
  | surcharge {i : Instruction} (more : i.stackOnly = false) : Cause f s i .outOfGas
  | immutable {i : Instruction} (static : f.isStatic) (changes : i.changesState) :
    Cause f s i .staticModeViolation
  | astray {i : Instruction} (jumps : i = .jump ∨ i = .jumpIf) : Cause f s i .badJumpDestination
  | host {op : HostInstruction} : Cause f s (.host op) .internalError

/-- Why there is no effect of executing what is at an offset. -/
inductive Fault (f : Frame) (offset : Nat) (m : Machine) : Status → Machine → Prop where
  | undefined (absent : Instruction.executable? f.revision (f.opcodeAt offset) = none) :
    Fault f offset m .undefinedInstruction m
  | unpaid {i : Instruction}
    (present : Instruction.executable? f.revision (f.opcodeAt offset) = some i)
    (dear : m.gas < i.price f.revision) : Fault f offset m .outOfGas m
  | failed {i : Instruction} {status : Status} {m' : Machine}
    (present : Instruction.executable? f.revision (f.opcodeAt offset) = some i)
    (paid : (i.price f.revision : Int) ≤ m.gas) (cause : Cause f m.stack i status)
    (height : m'.stack.depth ≤ m.stack.depth) : Fault f offset m status m'

/-! ## The parts of an instruction -/

/-- An action that is put together from two fails in one of them. -/
theorem bind_eq_error {x : Action α} {g : α → Action β} (h : (x >>= g) m = .error status m') :
    x m = .error status m' ∨ ∃ a m₁, x m = .ok a m₁ ∧ g a m₁ = .error status m' := by
  simp only [bind, EStateM.bind] at h
  cases hx : x m with
  | ok a m₁ =>
    rw [hx] at h
    exact .inr ⟨a, m₁, rfl, h⟩
  | error e m₁ =>
    rw [hx] at h
    cases h
    exact .inl rfl

theorem throw_eq_error {e : Status} (h : (throw e : Action α) m = .error status m') :
    status = e ∧ m' = m := by
  rw [throw_apply] at h
  cases h
  exact ⟨rfl, rfl⟩

theorem require_eq_error {x : Except Status α} (h : require x m = .error status m') :
    x = .error status ∧ m' = m := by
  cases x with
  | ok a => cases h
  | error e =>
    obtain ⟨rfl, rfl⟩ := throw_eq_error h
    exact ⟨rfl, rfl⟩

/-- If nothing can be taken, the stack was empty; otherwise what comes behind has failed. -/
theorem pop_bind_eq_error {next : Word → Action α} (h : (pop >>= next) m = .error status m') :
    m.stack.depth < 1 ∧ status = .stackUnderflow ∧ m' = m ∨
      ∃ a rest, m.stack.items = a :: rest ∧ next a (m.withItems rest) = .error status m' := by
  cases hitems : m.stack.items with
  | nil =>
    have hpop : (pop >>= next) m = .error .stackUnderflow m := by
      simp only [pop, bind, EStateM.bind, get_apply, Stack.pop, hitems]
      rfl
    rw [hpop] at h
    cases h
    refine .inl ⟨?_, rfl, rfl⟩
    rw [Stack.depth, hitems]
    exact Nat.one_pos
  | cons a rest =>
    rw [pop_bind_apply hitems] at h
    exact .inr ⟨a, rest, rfl, h⟩

/-- If two operands cannot be taken, the stack had fewer; otherwise what comes behind has failed. A
first one that has been taken stays off the stack. -/
theorem pop_pop_eq_error {next : Word → Word → Action α}
    (h : (pop >>= fun a => pop >>= fun b => next a b) m = .error status m') :
    m.stack.depth < 2 ∧ status = .stackUnderflow ∧ m'.stack.depth ≤ m.stack.depth ∨
      ∃ a b rest, m.stack.items = a :: b :: rest ∧
        next a b (m.withItems rest) = .error status m' := by
  rcases pop_bind_eq_error h with ⟨few, rfl, rfl⟩ | ⟨a, rest, hitems, h⟩
  · exact .inl ⟨Nat.lt_succ_of_lt few, rfl, Nat.le_refl _⟩
  have hdepth : m.stack.depth = rest.length + 1 := by rw [Stack.depth, hitems]; rfl
  rcases pop_bind_eq_error h with ⟨few, rfl, rfl⟩ | ⟨b, rest', hrest, h⟩
  · have few : rest.length < 1 := few
    refine .inl ⟨by omega, rfl, ?_⟩
    rw [hdepth]
    exact Nat.le_succ _
  · have hrest : rest = b :: rest' := hrest
    exact .inr ⟨a, b, rest', by rw [hitems, hrest], h⟩

/-- Only a full stack keeps a word from being put on it. -/
theorem push_next_eq_error {w : Word} {c : Control}
    (h : (push w >>= fun _ => pure c) m = .error status m') :
    m.stack.limit ≤ m.stack.depth ∧ status = .stackOverflow ∧ m' = m := by
  simp only [bind, EStateM.bind, push_apply] at h
  by_cases room : m.stack.depth < m.stack.limit
  · rw [if_pos room] at h
    cases h
  · rw [if_neg room] at h
    cases h
    exact ⟨Nat.le_of_not_lt room, rfl, rfl⟩

theorem updateStack_next_eq_error {change : Stack → Except Status Stack} {c : Control}
    (h : (updateStack change >>= fun _ => pure c) m = .error status m') :
    change m.stack = .error status ∧ m' = m := by
  simp only [updateStack, bind, EStateM.bind, get_apply] at h
  cases hchange : change m.stack with
  | ok s =>
    rw [hchange] at h
    cases h
  | error e =>
    rw [hchange] at h
    cases h
    exact ⟨rfl, rfl⟩

/-- A copy fails for a missing item first, and then for a full stack. -/
theorem dup_eq_error {s : Stack} {n : Nat} (pos : n ≠ 0) (h : s.dup n = .error status) :
    s.depth < n ∧ status = .stackUnderflow ∨
      n ≤ s.depth ∧ s.limit ≤ s.depth ∧ status = .stackOverflow := by
  unfold Stack.dup at h
  rw [if_neg pos] at h
  split at h
  · rename_i w hw
    have hn := (List.getElem?_eq_some_iff.mp hw).1
    unfold Stack.push at h
    split at h
    · cases h
    · rename_i full
      cases h
      exact .inr ⟨by rw [Stack.depth]; omega, Nat.le_of_not_lt full, rfl⟩
  · rename_i hw
    cases h
    have hn := List.getElem?_eq_none_iff.mp hw
    exact .inl ⟨by rw [Stack.depth]; omega, rfl⟩

example : Stack.dup { items := [.zero], limit := 1 } 2 = .error .stackUnderflow := by rfl

theorem swap_eq_error {s : Stack} {n : Nat} (pos : n ≠ 0) (h : s.swap n = .error status) :
    s.depth < n + 1 ∧ status = .stackUnderflow := by
  unfold Stack.swap at h
  split at h
  · cases h
  · rename_i hnone
    cases h
    exact ⟨(Stack.exchange?_eq_none_iff pos).mp hnone, rfl⟩

theorem popMany_eq_error {n : Nat} (h : popMany n m = .error status m') :
    m.stack.depth < n ∧ status = .stackUnderflow ∧ m'.stack.depth ≤ m.stack.depth := by
  induction n generalizing m with
  | zero => cases h
  | succ n ih =>
    rcases pop_bind_eq_error h with ⟨few, rfl, rfl⟩ | ⟨a, rest, hitems, h⟩
    · exact ⟨Nat.lt_of_lt_of_le few (Nat.succ_pos n), rfl, Nat.le_refl _⟩
    · have hdepth : m.stack.depth = rest.length + 1 := by rw [Stack.depth, hitems]; rfl
      obtain ⟨few, rfl, hlower⟩ := ih h
      have few : rest.length < n := few
      have hlower : m'.stack.depth ≤ rest.length := hlower
      exact ⟨by omega, rfl, by omega⟩

theorem charge_eq_error {amount : Nat} (h : charge amount m = .error status m') :
    m.gas < amount ∧ status = .outOfGas ∧ m' = m := by
  rw [charge_apply] at h
  split at h
  · cases h
  · rename_i dear
    cases h
    exact ⟨Int.not_le.mp dear, rfl, rfl⟩

/-- Memory that cannot grow leaves everything as it was. -/
theorem grow_eq_error {address : Word} {size : Nat} (h : grow address size m = .error status m') :
    status = .outOfGas ∧ m' = m := by
  unfold grow at h
  cases hindex : address.index? with
  | none =>
    rw [hindex] at h
    exact throw_eq_error h
  | some start =>
    simp only [hindex] at h
    rcases bind_eq_error h with h | ⟨now, m₁, h₁, h⟩
    · cases h
    obtain ⟨rfl, rfl⟩ := get_eq_ok h₁
    rcases bind_eq_error h with h | ⟨price, m₂, h₂, h⟩
    · obtain ⟨hprice, rfl⟩ := require_eq_error h
      exact ⟨Memory.error_of_expansionPrice hprice, rfl⟩
    obtain ⟨hprice, rfl⟩ := require_eq_ok h₂
    rcases bind_eq_error h with h | ⟨_, m₃, h₃, h⟩
    · obtain ⟨-, rfl, rfl⟩ := charge_eq_error h
      exact ⟨rfl, rfl⟩
    obtain ⟨-, rfl⟩ := charge_eq_ok_iff.mp h₃
    rcases bind_eq_error h with h | ⟨now, m₄, h₄, h⟩
    · cases h
    obtain ⟨rfl, rfl⟩ := get_eq_ok h₄
    rcases bind_eq_error h with h | ⟨memory, m₅, -, h⟩
    · -- what has been priced can be grown
      obtain ⟨hmemory, -⟩ := require_eq_error h
      cases hmemory.symm.trans (Memory.expand_of_expansionPrice hprice)
    · cases h

/-- If nothing fails behind a growth, then the growth does. -/
theorem grow_bind_eq_error {address : Word} {size : Nat} {next : Nat → Action α}
    (h : (grow address size >>= next) m = .error status m')
    (rest : ∀ start, ∃ a m₁, next start (m.grown start size) = .ok a m₁) :
    status = .outOfGas ∧ m' = m := by
  rcases bind_eq_error h with h | ⟨start, m₁, hgrow, h⟩
  · exact grow_eq_error h
  · obtain ⟨-, rfl⟩ := grow_eq_ok hgrow
    obtain ⟨a, m₂, hrest⟩ := rest start
    cases hrest.symm.trans h

/-- If nothing fails behind the growth for a range, then the growth does. -/
theorem growRange_bind_eq_error {address size : Word} {next : Nat × Nat → Action α}
    (h : (growRange address size >>= next) m = .error status m')
    (rest : ∀ range m₁, ∃ a m₂, next range m₁ = .ok a m₂) :
    status = .outOfGas ∧ m' = m := by
  rcases bind_eq_error h with h | ⟨range, m₁, -, h⟩
  · unfold growRange at h
    cases hsize : size.index? with
    | none =>
      rw [hsize] at h
      exact throw_eq_error h
    | some count =>
      rw [hsize] at h
      cases count with
      | zero => cases h
      | succ count => exact grow_bind_eq_error h fun start => ⟨_, _, rfl⟩
  · obtain ⟨a, m₂, hrest⟩ := rest range m₁
    cases hrest.symm.trans h

/-- What may change the state fails because the frame is static, or further on. -/
theorem requireMutable_bind_eq_error {next : Unit → Action α}
    (h : (f.requireMutable >>= next) m = .error status m') :
    f.isStatic ∧ status = .staticModeViolation ∧ m' = m ∨ next () m = .error status m' := by
  unfold Frame.requireMutable at h
  cases hstatic : f.isStatic with
  | true =>
    rw [hstatic] at h
    cases h
    exact .inl ⟨rfl, rfl, rfl⟩
  | false =>
    rw [hstatic] at h
    exact .inr h

theorem jumpTo_eq_error {target : Word} (h : f.jumpTo target m = .error status m') :
    status = .badJumpDestination ∧ m' = m := by
  unfold Frame.jumpTo at h
  cases hindex : target.index? with
  | none =>
    rw [hindex] at h
    exact throw_eq_error h
  | some goal =>
    simp only [hindex] at h
    by_cases hgoal : f.jumpTargets.getD goal false = true
    · rw [if_pos hgoal] at h
      cases h
    · rw [if_neg hgoal] at h
      exact throw_eq_error h

theorem length_le_depth (taken : List Word) {rest : List Word}
    (hitems : m.stack.items = taken ++ rest) : rest.length ≤ m.stack.depth := by
  rw [Stack.depth, hitems, List.length_append]
  exact Nat.le_add_left _ _

/-- A run cannot end with output for want of operands or of gas. -/
theorem finish_eq_error {reverts : Bool} (h : finish reverts m = .error status m') :
    (m.stack.depth < 2 ∧ status = .stackUnderflow ∨ status = .outOfGas) ∧
      m'.stack.depth ≤ m.stack.depth := by
  rcases pop_pop_eq_error h with ⟨hfew, rfl, hheight⟩ | ⟨start, size, rest, hitems, h⟩
  · exact ⟨.inl ⟨hfew, rfl⟩, hheight⟩
  · obtain ⟨rfl, rfl⟩ := growRange_bind_eq_error h fun range m₁ => ⟨_, m₁, rfl⟩
    exact ⟨.inr rfl, length_le_depth [start, size] hitems⟩

/-! ## Whole instructions -/

/-- An instruction that fails has a cause, and leaves a stack that is no higher. What takes an
operand before it leaves a word has room for the word; and what accesses the memory has made it
cover the access before. -/
theorem cause_of_perform {i : Instruction} (valid : i ≠ .invalid) (pos : i ≠ .dup 0 ∧ i ≠ .swap 0)
    (height : m.stack.depth ≤ m.stack.limit) (h : perform f offset i m = .error status m') :
    Cause f m.stack i status ∧ m'.stack.depth ≤ m.stack.depth := by
  cases i with
  | stop => cases h
  | binary op =>
    rcases pop_pop_eq_error h with ⟨few, rfl, hlower⟩ | ⟨a, b, rest, hitems, h⟩
    · exact ⟨.underflow few, hlower⟩
    · obtain ⟨full, -, -⟩ := push_next_eq_error h
      exact absurd (room_of_taken [b] height hitems) (Nat.not_lt.mpr full)
  | unary op =>
    rcases pop_bind_eq_error h with ⟨few, rfl, rfl⟩ | ⟨a, rest, hitems, h⟩
    · exact ⟨.underflow few, Nat.le_refl _⟩
    · obtain ⟨full, -, -⟩ := push_next_eq_error h
      exact absurd (room_of_taken [] height hitems) (Nat.not_lt.mpr full)
  | query op =>
    rcases bind_eq_error h with h | ⟨now, m₁, h₁, h⟩
    · cases h
    obtain ⟨rfl, rfl⟩ := get_eq_ok h₁
    obtain ⟨full, rfl, rfl⟩ := push_next_eq_error h
    exact ⟨.overflow rfl (Nat.zero_le _) full, Nat.le_refl _⟩
  | callDataLoad =>
    rcases pop_bind_eq_error h with ⟨few, rfl, rfl⟩ | ⟨a, rest, hitems, h⟩
    · exact ⟨.underflow few, Nat.le_refl _⟩
    · obtain ⟨full, -, -⟩ := push_next_eq_error h
      exact absurd (room_of_taken [] height hitems) (Nat.not_lt.mpr full)
  | pop =>
    rcases pop_bind_eq_error h with ⟨few, rfl, rfl⟩ | ⟨a, rest, hitems, h⟩
    · exact ⟨.underflow few, Nat.le_refl _⟩
    · cases h
  | memoryLoad =>
    rcases pop_bind_eq_error h with ⟨few, rfl, rfl⟩ | ⟨a, rest, hitems, h⟩
    · exact ⟨.underflow few, Nat.le_refl _⟩
    · have room : rest.length < m.stack.limit := room_of_taken [] height hitems
      obtain ⟨rfl, rfl⟩ :=
        grow_bind_eq_error h fun start => exists_load_grown (m.withItems rest) start room
      exact ⟨.surcharge rfl, length_le_depth [a] hitems⟩
  | memoryStore =>
    rcases pop_pop_eq_error h with ⟨few, rfl, hlower⟩ | ⟨a, b, rest, hitems, h⟩
    · exact ⟨.underflow few, hlower⟩
    · obtain ⟨rfl, rfl⟩ :=
        grow_bind_eq_error h fun start => exists_write_grown _ start b.length_toBytes
      exact ⟨.surcharge rfl, length_le_depth [a, b] hitems⟩
  | memoryStoreByte =>
    rcases pop_pop_eq_error h with ⟨few, rfl, hlower⟩ | ⟨a, b, rest, hitems, h⟩
    · exact ⟨.underflow few, hlower⟩
    · obtain ⟨rfl, rfl⟩ := grow_bind_eq_error h fun start => exists_write_grown _ start rfl
      exact ⟨.surcharge rfl, length_le_depth [a, b] hitems⟩
  | storageLoad =>
    rcases pop_bind_eq_error h with ⟨few, rfl, rfl⟩ | ⟨a, rest, hitems, h⟩
    · exact ⟨.underflow few, Nat.le_refl _⟩
    · rcases bind_eq_error h with h | ⟨now, m₁, h₁, h⟩
      · cases h
      obtain ⟨rfl, rfl⟩ := get_eq_ok h₁
      obtain ⟨full, -, -⟩ := push_next_eq_error h
      exact absurd (room_of_taken [] height hitems) (Nat.not_lt.mpr full)
  | storageStore =>
    rcases requireMutable_bind_eq_error h with ⟨static, rfl, rfl⟩ | h
    · exact ⟨.immutable static rfl, Nat.le_refl _⟩
    rcases pop_pop_eq_error h with ⟨few, rfl, hlower⟩ | ⟨a, b, rest, hitems, h⟩
    · exact ⟨.underflow few, hlower⟩
    rcases bind_eq_error h with h | ⟨now, m₁, h₁, h⟩
    · cases h
    obtain ⟨rfl, rfl⟩ := get_eq_ok h₁
    rcases bind_eq_error h with h | ⟨_, m₂, -, h⟩
    · obtain ⟨-, rfl, rfl⟩ := charge_eq_error h
      exact ⟨.surcharge rfl, length_le_depth [a, b] hitems⟩
    · cases h
  | jump =>
    rcases pop_bind_eq_error h with ⟨few, rfl, rfl⟩ | ⟨a, rest, hitems, h⟩
    · exact ⟨.underflow few, Nat.le_refl _⟩
    · obtain ⟨rfl, rfl⟩ := jumpTo_eq_error h
      exact ⟨.astray (.inl rfl), length_le_depth [a] hitems⟩
  | jumpIf =>
    rcases pop_pop_eq_error h with ⟨few, rfl, hlower⟩ | ⟨a, b, rest, hitems, h⟩
    · exact ⟨.underflow few, hlower⟩
    · cases hcondition : b.isZero with
      | true =>
        rw [hcondition] at h
        cases h
      | false =>
        rw [hcondition] at h
        obtain ⟨rfl, rfl⟩ := jumpTo_eq_error h
        exact ⟨.astray (.inr rfl), length_le_depth [a, b] hitems⟩
  | jumpDestination => cases h
  | push size =>
    obtain ⟨full, rfl, rfl⟩ := push_next_eq_error h
    exact ⟨.overflow rfl (Nat.zero_le _) full, Nat.le_refl _⟩
  | dup n =>
    obtain ⟨hdup, rfl⟩ := updateStack_next_eq_error h
    have hn : n ≠ 0 := fun hn => pos.1 (congrArg Instruction.dup hn)
    rcases dup_eq_error hn hdup with ⟨few, rfl⟩ | ⟨enough, full, rfl⟩
    · exact ⟨.underflow few, Nat.le_refl _⟩
    · exact ⟨.overflow rfl enough full, Nat.le_refl _⟩
  | swap n =>
    obtain ⟨hswap, rfl⟩ := updateStack_next_eq_error h
    have hn : n ≠ 0 := fun hn => pos.2 (congrArg Instruction.swap hn)
    obtain ⟨few, rfl⟩ := swap_eq_error hn hswap
    exact ⟨.underflow few, Nat.le_refl _⟩
  | log topics =>
    rcases requireMutable_bind_eq_error h with ⟨static, rfl, rfl⟩ | h
    · exact ⟨.immutable static rfl, Nat.le_refl _⟩
    rcases pop_pop_eq_error h with ⟨few, rfl, hlower⟩ | ⟨a, b, rest, hitems, h⟩
    · exact ⟨.underflow (Nat.lt_of_lt_of_le few (Nat.le_add_left 2 topics)), hlower⟩
    rcases bind_eq_error h with h | ⟨_, m₁, h₁, h⟩
    · obtain ⟨few, rfl, hlower⟩ := popMany_eq_error h
      have few : rest.length < topics := few
      have hlower : m'.stack.depth ≤ rest.length := hlower
      have hdepth : m.stack.depth = rest.length + 2 := by rw [Stack.depth, hitems]; rfl
      exact ⟨.underflow (by rw [hdepth]; exact Nat.add_lt_add_right few 2), by omega⟩
    obtain ⟨dropped, rest', hrest, -, rfl⟩ := popMany_eq_ok h₁
    have hrest : rest = dropped ++ rest' := hrest
    have hitems : m.stack.items = (a :: b :: dropped) ++ rest' := by rw [hitems, hrest]; rfl
    cases hsize : b.index? with
    | none =>
      rw [hsize] at h
      cases h
      exact ⟨.surcharge rfl, length_le_depth _ hitems⟩
    | some count =>
      rw [hsize] at h
      rcases bind_eq_error h with h | ⟨_, m₂, h₂, h⟩
      · obtain ⟨-, rfl, rfl⟩ := charge_eq_error h
        exact ⟨.surcharge rfl, length_le_depth _ hitems⟩
      · obtain ⟨-, rfl⟩ := charge_eq_ok_iff.mp h₂
        obtain ⟨rfl, rfl⟩ := growRange_bind_eq_error h fun range m₁ => ⟨_, m₁, rfl⟩
        exact ⟨.surcharge rfl, length_le_depth _ hitems⟩
  | halt =>
    obtain ⟨⟨few, rfl⟩ | rfl, hlower⟩ := finish_eq_error h
    · exact ⟨.underflow few, hlower⟩
    · exact ⟨.surcharge rfl, hlower⟩
  | revert =>
    obtain ⟨⟨few, rfl⟩ | rfl, hlower⟩ := finish_eq_error h
    · exact ⟨.underflow few, hlower⟩
    · exact ⟨.surcharge rfl, hlower⟩
  | invalid => exact absurd rfl valid
  | host op =>
    cases h
    exact ⟨.host, Nat.le_refl _⟩

/-- What is executed at an offset and fails has a fault. -/
theorem fault_of_executeAt (height : m.stack.depth ≤ m.stack.limit)
    (h : f.executeAt offset m = .error status m') : Fault f offset m status m' := by
  cases hi : Instruction.executable? f.revision (f.opcodeAt offset) with
  | none =>
    rw [executeAt_of_none m hi] at h
    cases h
    exact .undefined hi
  | some i =>
    rw [executeAt_apply m hi] at h
    by_cases paid : (i.price f.revision : Int) ≤ m.gas
    · rw [if_pos paid] at h
      obtain ⟨-, valid⟩ := Instruction.executable?_eq_some_iff.mp hi
      have pos := Instruction.pos_of_ofByte? (Instruction.ofByte?_of_executable? hi)
      obtain ⟨cause, hlower⟩ :=
        cause_of_perform (m := { m with gas := m.gas - i.price f.revision }) valid pos height h
      exact .failed hi paid cause hlower
    · rw [if_neg paid] at h
      cases h
      exact .unpaid hi (Int.not_le.mp paid)

end Machine

end EvmDispatch
