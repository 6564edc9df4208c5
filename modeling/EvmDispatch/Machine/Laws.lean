import EvmDispatch.Machine.Execute

/-!
# Laws of actions

Every instruction is put together from elementary actions: it looks at the state, changes the stack,
pays, changes the memory, or fails by one of the statuses of `Status.isFault`. What these obey, and
what is kept when one action follows another, every instruction obeys (`ActionLaw.of_perform`). Two
instructions do something else besides, for which a law has to be shown apart: one asks for the gas,
and one stores a word.
-/

namespace EvmDispatch

/-- Whether an instruction can fail by a status. -/
def Status.isFault : Status → Bool
  | outOfGas => true
  | undefinedInstruction => true
  | stackOverflow => true
  | stackUnderflow => true
  | badJumpDestination => true
  | invalidMemoryAccess => true
  | staticModeViolation => true
  | internalError => true
  | _ => false

/-- Whether an instruction, once it is paid for, acts on the stack only: it neither touches the
memory nor stores a word. -/
def Instruction.stackOnly : Instruction → Bool
  | memoryLoad => false
  | memoryStore => false
  | memoryStoreByte => false
  | storageStore => false
  | log _ => false
  | halt => false
  | revert => false
  | _ => true

namespace Machine

/-- A law that what acts on the stack only obeys. What an action reads of the state must not depend
on the gas. -/
structure StackLaw (law : (α : Type) → Action α → Prop) : Prop where
  pure {α : Type} (a : α) : law α (pure a)
  throw {α : Type} {status : Status} (fault : status.isFault) : law α (throw status)
  bind {α β : Type} {x : Action α} {g : α → Action β} (first : law α x)
    (rest : ∀ a, law β (g a)) : law β (x >>= g)
  read {α : Type} {g : Machine → Action α} (blind : ∀ m gas, g { m with gas := gas } = g m)
    (rest : ∀ m, law α (g m)) : law α (get >>= g)
  changeStack (stack : Stack) : law Unit (modify fun m => { m with stack })

/-- A law that what acts on the stack and the memory obeys, and what pays for it. -/
structure ActionLaw (law : (α : Type) → Action α → Prop) : Prop extends StackLaw law where
  charge (amount : Nat) : law Unit (charge amount)
  changeMemory (change : Memory → Memory) :
    law Unit (modify fun m => { m with memory := change m.memory })

/-! ## What fails, fails by a fault -/

theorem isFault_of_push {s : Stack} {w : Word} {e : Status} (h : s.push w = .error e) :
    e.isFault := by
  unfold Stack.push at h
  split at h <;> cases h
  rfl

theorem isFault_of_dup {n : Nat} {s : Stack} {e : Status} (h : s.dup n = .error e) :
    e.isFault := by
  unfold Stack.dup at h
  split at h
  · cases h; rfl
  · split at h
    · exact isFault_of_push h
    · cases h; rfl

theorem isFault_of_swap {n : Nat} {s : Stack} {e : Status} (h : s.swap n = .error e) :
    e.isFault := by
  unfold Stack.swap at h
  split at h <;> cases h
  rfl

theorem isFault_of_expansionPrice {memory : Memory} {offset size : Nat} {e : Status}
    (h : memory.expansionPrice offset size = .error e) : e.isFault := by
  rw [Memory.error_of_expansionPrice h]
  rfl

theorem isFault_of_expand {memory : Memory} {offset size : Nat} {e : Status}
    (h : memory.expand offset size = .error e) : e.isFault := by
  rw [Memory.expand_eq] at h
  split at h <;> cases h
  rfl

theorem isFault_of_pop {s : Stack} {e : Status} (h : s.pop = .error e) : e.isFault := by
  unfold Stack.pop at h
  split at h <;> cases h
  rfl

variable {law : (α : Type) → Action α → Prop} {α : Type}

namespace StackLaw

variable (obeyed : StackLaw law)

include obeyed

/-! ## Acting on the stack -/

theorem of_require {x : Except Status α} (h : ∀ e, x = .error e → e.isFault) :
    law α (require x) := by
  cases x with
  | ok a => exact obeyed.pure a
  | error e => exact obeyed.throw (h e rfl)

theorem of_pop : law Word pop :=
  obeyed.read (fun _ _ => rfl) fun _ =>
    obeyed.bind (obeyed.of_require fun _ => isFault_of_pop) fun _ =>
      obeyed.bind (obeyed.changeStack _) fun _ => obeyed.pure _

theorem of_updateStack {change : Stack → Except Status Stack}
    (h : ∀ s e, change s = .error e → e.isFault) : law Unit (updateStack change) :=
  obeyed.read (fun _ _ => rfl) fun _ =>
    obeyed.bind (obeyed.of_require (h _)) fun _ => obeyed.changeStack _

theorem of_push (w : Word) : law Unit (push w) := obeyed.of_updateStack fun _ _ => isFault_of_push

theorem of_popMany (n : Nat) : law Unit (popMany n) := by
  induction n with
  | zero => exact obeyed.pure _
  | succ n ih => exact obeyed.bind obeyed.of_pop fun _ => ih

theorem of_requireMutable (f : Frame) : law Unit f.requireMutable := by
  unfold Frame.requireMutable
  split
  · exact obeyed.throw rfl
  · exact obeyed.pure _

theorem of_jumpTo (f : Frame) (target : Word) : law Control (f.jumpTo target) := by
  unfold Frame.jumpTo
  split
  · split
    · exact obeyed.pure _
    · exact obeyed.throw rfl
  · exact obeyed.throw rfl

theorem of_push_next (w : Word) : law Control (push w >>= fun _ => Pure.pure .next) :=
  obeyed.bind (obeyed.of_push w) fun _ => obeyed.pure _

/-- What holds of all that acts on the stack, and of asking for the gas, holds of the instructions
that do no more than that. -/
theorem of_stackOnly {f : Frame} {offset : Nat} {i : Instruction} (h : i.stackOnly)
    (asking : i = .query .gas → law Control (perform f offset (.query .gas))) :
    law Control (perform f offset i) := by
  have hpop := obeyed.of_pop
  cases i with
  | stop => exact obeyed.pure _
  | binary op =>
    exact obeyed.bind hpop fun _ => obeyed.bind hpop fun _ => obeyed.of_push_next _
  | unary op => exact obeyed.bind hpop fun _ => obeyed.of_push_next _
  | query op =>
    cases op with
    | gas => exact asking rfl
    | _ => exact obeyed.read (fun _ _ => rfl) fun _ => obeyed.of_push_next _
  | callDataLoad => exact obeyed.bind hpop fun _ => obeyed.of_push_next _
  | pop => exact obeyed.bind hpop fun _ => obeyed.pure _
  | storageLoad =>
    exact obeyed.bind hpop fun _ => obeyed.read (fun _ _ => rfl) fun _ => obeyed.of_push_next _
  | jump => exact obeyed.bind hpop fun _ => obeyed.of_jumpTo f _
  | jumpIf =>
    refine obeyed.bind hpop fun _ => obeyed.bind hpop fun condition => ?_
    split
    · exact obeyed.pure _
    · exact obeyed.of_jumpTo f _
  | jumpDestination => exact obeyed.pure _
  | push size => exact obeyed.of_push_next _
  | dup n =>
    exact obeyed.bind (obeyed.of_updateStack fun _ _ => isFault_of_dup) fun _ => obeyed.pure _
  | swap n =>
    exact obeyed.bind (obeyed.of_updateStack fun _ _ => isFault_of_swap) fun _ => obeyed.pure _
  | invalid => exact obeyed.throw rfl
  | host op => exact obeyed.throw rfl
  | _ => cases h

end StackLaw

namespace ActionLaw

variable (obeyed : ActionLaw law)

include obeyed

/-! ## Acting on the memory -/

theorem of_grow (offset : Word) (size : Nat) : law Nat (grow offset size) := by
  unfold grow
  cases offset.index? with
  | none => exact obeyed.throw rfl
  | some start =>
    exact obeyed.read (fun _ _ => rfl) fun _ =>
      obeyed.bind (obeyed.of_require fun _ => isFault_of_expansionPrice) fun _ =>
        obeyed.bind (obeyed.charge _) fun _ => obeyed.read (fun _ _ => rfl) fun _ =>
          obeyed.bind (obeyed.of_require fun _ => isFault_of_expand) fun memory =>
            obeyed.bind (obeyed.changeMemory fun _ => memory) fun _ => obeyed.pure _

theorem of_growRange (offset size : Word) : law (Nat × Nat) (growRange offset size) := by
  unfold growRange
  split
  · exact obeyed.pure _
  · exact obeyed.bind (obeyed.of_grow _ _) fun _ => obeyed.pure _
  · exact obeyed.throw rfl

theorem of_requireCovered (offset size : Nat) : law Unit (requireCovered offset size) := by
  refine obeyed.read (fun _ _ => rfl) fun _ => ?_
  split
  · exact obeyed.pure _
  · exact obeyed.throw rfl

theorem of_readMemory (offset size : Nat) : law Bytes (readMemory offset size) :=
  obeyed.bind (obeyed.of_requireCovered _ _) fun _ =>
    obeyed.read (fun _ _ => rfl) fun _ => obeyed.pure _

theorem of_writeMemory (offset : Nat) (bytes : Bytes) : law Unit (writeMemory offset bytes) :=
  obeyed.bind (obeyed.of_requireCovered _ _) fun _ =>
    obeyed.changeMemory fun memory => memory.write offset bytes

theorem of_finish (reverts : Bool) : law Control (finish reverts) :=
  obeyed.bind obeyed.of_pop fun _ => obeyed.bind obeyed.of_pop fun _ =>
    obeyed.bind (obeyed.of_growRange _ _) fun _ => obeyed.pure _

/-! ## Instructions -/

/-- Every instruction obeys a law that is obeyed when one asks for the gas and when one stores a
word. -/
theorem of_perform {f : Frame} {offset : Nat} {i : Instruction}
    (asking : i = .query .gas → law Control (perform f offset (.query .gas)))
    (storing : i = .storageStore → ∀ key value,
      law Unit (modify fun m => { m with storage := m.storage.store key value })) :
    law Control (perform f offset i) := by
  have hpop := obeyed.of_pop
  cases i with
  | memoryLoad =>
    exact obeyed.bind hpop fun _ => obeyed.bind (obeyed.of_grow _ _) fun _ =>
      obeyed.bind (obeyed.of_readMemory _ _) fun _ => obeyed.of_push_next _
  | memoryStore =>
    exact obeyed.bind hpop fun _ => obeyed.bind hpop fun _ =>
      obeyed.bind (obeyed.of_grow _ _) fun _ => obeyed.bind (obeyed.of_writeMemory _ _) fun _ =>
        obeyed.pure _
  | memoryStoreByte =>
    exact obeyed.bind hpop fun _ => obeyed.bind hpop fun _ =>
      obeyed.bind (obeyed.of_grow _ _) fun _ => obeyed.bind (obeyed.of_writeMemory _ _) fun _ =>
        obeyed.pure _
  | storageStore =>
    exact obeyed.bind (obeyed.of_requireMutable f) fun _ => obeyed.bind hpop fun _ =>
      obeyed.bind hpop fun _ => obeyed.read (fun _ _ => rfl) fun _ =>
        obeyed.bind (obeyed.charge _) fun _ => obeyed.bind (storing rfl _ _) fun _ =>
          obeyed.pure _
  | log topics =>
    refine obeyed.bind (obeyed.of_requireMutable f) fun _ => obeyed.bind hpop fun _ =>
      obeyed.bind hpop fun size => obeyed.bind (obeyed.of_popMany _) fun _ => ?_
    split
    · exact obeyed.bind (obeyed.charge _) fun _ => obeyed.bind (obeyed.of_growRange _ _) fun _ =>
        obeyed.pure _
    · exact obeyed.bind (obeyed.throw rfl) fun _ => obeyed.bind (obeyed.of_growRange _ _) fun _ =>
        obeyed.pure _
  | halt => exact obeyed.of_finish _
  | revert => exact obeyed.of_finish _
  | _ => exact obeyed.of_stackOnly rfl asking

theorem of_executeAt {f : Frame} {offset : Nat}
    (asking : Instruction.ofByte? (f.opcodeAt offset) = some (.query .gas) →
      law Control (perform f offset (.query .gas)))
    (storing : Instruction.ofByte? (f.opcodeAt offset) = some .storageStore → ∀ key value,
      law Unit (modify fun m => { m with storage := m.storage.store key value })) :
    law Control (f.executeAt offset) := by
  unfold Frame.executeAt
  split
  · rename_i i hi
    have hbyte := Instruction.ofByte?_of_executable? hi
    refine obeyed.bind (obeyed.charge _) fun _ => obeyed.of_perform ?_ ?_
    · rintro rfl
      exact asking hbyte
    · rintro rfl
      exact storing hbyte
  · exact obeyed.throw rfl

end ActionLaw

end Machine

end EvmDispatch
