import EvmDispatch.Machine.Laws

/-!
# Gas only falls

Every instruction is composed of a few elementary actions: it looks at the state, pays, changes
something else than the gas, or fails by one of the statuses of `Status.isFault`. To be composed of
them is the weakest of the laws that every instruction obeys, and what all of them keep is kept. So
no instruction ends with more gas than it started with, and an instruction after which the execution
goes on has cost something. `executeAt_gas_lt` is what bounds a run.
-/

namespace EvmDispatch.Machine

/-- The state that an action leaves, whether it fails or not. -/
def stateOf {α : Type} : EStateM.Result Status Machine α → Machine
  | .ok _ m => m
  | .error _ m => m

/-! ## What the elementary actions do -/

theorem get_apply (m : Machine) : (get : Action Machine) m = .ok m m := rfl

theorem pure_apply {α : Type} (a : α) (m : Machine) : (pure a : Action α) m = .ok a m := rfl

theorem throw_apply {α : Type} (status : Status) (m : Machine) :
    (throw status : Action α) m = .error status m := rfl

theorem charge_apply (amount : Nat) (m : Machine) :
    charge amount m =
      if (amount : Int) ≤ m.gas then .ok () { m with gas := m.gas - amount }
      else .error .outOfGas m := by
  simp only [charge, bind, EStateM.bind, get_apply]
  split <;> rfl

/-! ## Composed actions -/

/-- An action that is put together from elementary ones. -/
inductive Composed : {α : Type} → Action α → Prop where
  | pure {α : Type} (a : α) : Composed (pure a : Action α)
  | throw {α : Type} {status : Status} (fault : status.isFault) :
    Composed (throw status : Action α)
  | get : Composed (get : Action Machine)
  | modify {change : Machine → Machine} (gas : ∀ m, (change m).gas = m.gas) :
    Composed (modify change : Action Unit)
  | charge (amount : Nat) : Composed (charge amount)
  | bind {α β : Type} {x : Action α} {f : α → Action β} (first : Composed x)
    (rest : ∀ a, Composed (f a)) : Composed (x >>= f)

namespace Composed

variable {α : Type}

theorem actionLaw : ActionLaw fun _ x => Composed x where
  pure := .pure
  throw := .throw
  bind := .bind
  read _ rest := .bind .get rest
  changeStack _ := .modify fun _ => rfl
  charge := .charge
  changeMemory _ := .modify fun _ => rfl

/-- Every instruction is composed of elementary actions. -/
theorem of_perform (f : Frame) (offset : Nat) (i : Instruction) :
    Composed (perform f offset i) :=
  actionLaw.of_perform
    (fun _ => .bind .get fun _ => .bind (actionLaw.of_push _) fun _ => .pure _)
    fun _ _ _ => .modify fun _ => rfl

/-- What a frame executes is composed of elementary actions, also where no instruction is defined.
-/
theorem of_executeAt (f : Frame) (offset : Nat) : Composed (f.executeAt offset) := by
  unfold Frame.executeAt
  split
  · exact .bind (.charge _) fun _ => of_perform _ _ _
  · exact .throw rfl

/-! ## What composed actions keep -/

/-- A composed action leaves no more gas than there was, and no debt if there was none. -/
theorem frugal {x : Action α} (hx : Composed x) (m : Machine) :
    (stateOf (x m)).gas ≤ m.gas ∧ (0 ≤ m.gas → 0 ≤ (stateOf (x m)).gas) := by
  induction hx generalizing m with
  | pure a => exact ⟨Int.le_refl _, id⟩
  | throw fault => exact ⟨Int.le_refl _, id⟩
  | get => exact ⟨Int.le_refl _, id⟩
  | modify gas =>
    have hgas := gas m
    exact ⟨Int.le_of_eq hgas, fun hm => Int.le_trans hm (Int.le_of_eq hgas.symm)⟩
  | charge amount =>
    rw [charge_apply]
    split <;> simp only [stateOf] <;> omega
  | bind first rest ih₁ ih₂ =>
    rename_i x f
    have h₁ := ih₁ m
    simp only [Bind.bind, EStateM.bind]
    cases h : x m with
    | error e m' => simpa [h, stateOf] using h₁
    | ok a m' =>
      have h₂ := ih₂ a m'
      simp only [h, stateOf] at h₁
      exact ⟨Int.le_trans h₂.1 h₁.1, fun hm => h₂.2 (h₁.2 hm)⟩

theorem frugal_of_ok {x : Action α} (hx : Composed x) {m m' : Machine} {a : α}
    (h : x m = .ok a m') : m'.gas ≤ m.gas ∧ (0 ≤ m.gas → 0 ≤ m'.gas) := by
  simpa [h, stateOf] using hx.frugal m

/-- A composed action fails by a fault only. -/
theorem isFault_of_error {x : Action α} (hx : Composed x) {m m' : Machine} {e : Status}
    (h : x m = .error e m') : e.isFault := by
  induction hx generalizing m with
  | pure a => cases h
  | throw fault =>
    cases h
    exact fault
  | get => cases h
  | modify gas => cases h
  | charge amount =>
    rw [charge_apply] at h
    split at h <;> cases h
    rfl
  | bind first rest ih₁ ih₂ =>
    rename_i x f
    simp only [Bind.bind, EStateM.bind] at h
    cases hx : x m with
    | error e' m₁ =>
      rw [hx] at h
      cases h
      exact ih₁ hx
    | ok a m₁ =>
      rw [hx] at h
      exact ih₂ a h

end Composed

/-! ## What goes on has cost something -/

/-- What an action that succeeds does, step by step. -/
theorem bind_eq_ok {α β : Type} {x : Action α} {f : α → Action β} {m m' : Machine} {b : β}
    (h : (x >>= f) m = .ok b m') : ∃ a m₁, x m = .ok a m₁ ∧ f a m₁ = .ok b m' := by
  simp only [bind, EStateM.bind] at h
  cases hx : x m with
  | ok a m₁ => exact ⟨a, m₁, rfl, by simpa [hx] using h⟩
  | error e m₁ => simp [hx] at h

/-- What is paid was there, and is gone. -/
theorem charge_eq_ok_iff {amount : Nat} {m m' : Machine} {u : Unit} :
    charge amount m = .ok u m' ↔
      (amount : Int) ≤ m.gas ∧ m' = { m with gas := m.gas - amount } := by
  rw [charge_apply]
  split
  · rename_i h
    simp [h, eq_comm]
  · rename_i h
    simp [h]

/-- What is executed has been paid for before. -/
theorem executeAt_eq_ok {f : Frame} {offset : Nat} {m m' : Machine} {c : Control}
    (h : f.executeAt offset m = .ok c m') :
    ∃ i, Instruction.executable? f.revision (f.opcodeAt offset) = some i ∧
      (i.price f.revision : Int) ≤ m.gas ∧
      perform f offset i { m with gas := m.gas - i.price f.revision } = .ok c m' := by
  unfold Frame.executeAt at h
  cases hi : Instruction.executable? f.revision (f.opcodeAt offset) with
  | none =>
    rw [hi] at h
    cases h
  | some i =>
    simp only [hi] at h
    obtain ⟨_, m₁, h₁, h⟩ := bind_eq_ok h
    obtain ⟨paid, rfl⟩ := charge_eq_ok_iff.mp h₁
    exact ⟨i, rfl, paid, h⟩

/-- What the frame executes without a failure is paid for, so that no debt is left. -/
theorem executeAt_gas_nonneg {f : Frame} {offset : Nat} {m m' : Machine} {c : Control}
    (h : f.executeAt offset m = .ok c m') : 0 ≤ m'.gas := by
  obtain ⟨i, -, paid, h⟩ := executeAt_eq_ok h
  exact ((Composed.of_perform f offset i).frugal_of_ok h).2 (Int.sub_nonneg_of_le paid)

/-- Halting and reverting end the run, and name the range of the output. -/
theorem finish_ne_ok {reverts : Bool} {m m' : Machine} {c : Control}
    (h : finish reverts m = .ok c m') : ∃ offset size, c = .finish reverts offset size := by
  obtain ⟨_, _, -, h⟩ := bind_eq_ok h
  obtain ⟨_, _, -, h⟩ := bind_eq_ok h
  obtain ⟨range, _, -, h⟩ := bind_eq_ok h
  rw [pure_apply] at h
  exact ⟨range.1, range.2, (EStateM.Result.ok.inj h).1.symm⟩

/-- Storing a word costs something besides the price of the instruction. -/
theorem perform_storageStore_gas_lt {f : Frame} {offset : Nat} {m m' : Machine} {c : Control}
    (h : perform f offset .storageStore m = .ok c m') : m'.gas < m.gas := by
  obtain ⟨_, m₁, h₁, h⟩ := bind_eq_ok h
  obtain ⟨key, m₂, h₂, h⟩ := bind_eq_ok h
  obtain ⟨value, m₃, h₃, h⟩ := bind_eq_ok h
  obtain ⟨now, m₄, h₄, h⟩ := bind_eq_ok h
  obtain ⟨_, m₅, h₅, h⟩ := bind_eq_ok h
  obtain ⟨_, m₆, h₆, h⟩ := bind_eq_ok h
  have h₁ := (Composed.frugal_of_ok (Composed.actionLaw.of_requireMutable f) h₁).1
  have h₂ := (Composed.frugal_of_ok Composed.actionLaw.of_pop h₂).1
  have h₃ := (Composed.frugal_of_ok Composed.actionLaw.of_pop h₃).1
  have h₄ := (Composed.get.frugal_of_ok h₄).1
  obtain ⟨-, h₅⟩ := charge_eq_ok_iff.mp h₅
  have h₅ : m₅.gas = m₄.gas - storePrice _ := congrArg Machine.gas h₅
  have h₆ : m₆.gas ≤ m₅.gas := ((Composed.modify fun _ => rfl).frugal_of_ok h₆).1
  have h := ((Composed.pure _).frugal_of_ok h).1
  have : 5000 ≤ storePrice ((now.storage.load key).isZero && !value.isZero) := by
    unfold storePrice
    split <;> omega
  omega

/-- An instruction after which the execution goes on is dear, or charges for itself. -/
theorem price_pos_of_continues {f : Frame} {offset : Nat} {i : Instruction} {m m' : Machine}
    {c : Control} (h : perform f offset i m = .ok c m')
    (continues : ∀ reverts start size, c ≠ .finish reverts start size) :
    0 < i.price f.revision ∨ i = .storageStore := by
  cases i with
  | stop =>
    rw [perform, pure_apply] at h
    exact absurd (EStateM.Result.ok.inj h).1.symm (continues _ _ _)
  | halt =>
    obtain ⟨_, _, rfl⟩ := finish_ne_ok h
    exact absurd rfl (continues _ _ _)
  | revert =>
    obtain ⟨_, _, rfl⟩ := finish_ne_ok h
    exact absurd rfl (continues _ _ _)
  | invalid =>
    rw [perform, throw_apply] at h
    cases h
  | host op =>
    rw [perform, throw_apply] at h
    cases h
  | storageStore => exact .inr rfl
  | binary op => cases op <;> simp [Instruction.price, BinaryInstruction.price]
  | storageLoad =>
    refine .inl ?_
    simp only [Instruction.price]
    split <;> omega
  | log topics =>
    refine .inl ?_
    simp only [Instruction.price]
    omega
  | _ => simp [Instruction.price]

/-- An instruction after which the execution goes on leaves less gas than there was, but no debt. -/
theorem executeAt_gas_lt {f : Frame} {offset : Nat} {m m' : Machine} {c : Control}
    (h : f.executeAt offset m = .ok c m')
    (continues : ∀ reverts start size, c ≠ .finish reverts start size) :
    m'.gas < m.gas ∧ 0 ≤ m'.gas := by
  refine ⟨?_, executeAt_gas_nonneg h⟩
  obtain ⟨i, -, -, h⟩ := executeAt_eq_ok h
  have hle : m'.gas ≤ m.gas - i.price f.revision :=
    ((Composed.of_perform f offset i).frugal_of_ok h).1
  rcases price_pos_of_continues h continues with hp | rfl
  · omega
  · have hlt : m'.gas < m.gas - Instruction.storageStore.price f.revision :=
      perform_storageStore_gas_lt h
    omega

end EvmDispatch.Machine
