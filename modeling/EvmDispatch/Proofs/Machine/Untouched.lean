import EvmDispatch.Machine.Frugal

/-!
# What actions leave as it is

An action `Keeps` a part of the machine if this part is the same after it, whether the action fails
or not. Actions put together from such actions are such actions again. So what acts on the stack
only keeps all other parts, and the storage is kept by every instruction but one.
-/

namespace EvmDispatch.Machine

variable {α β γ : Type} {part : Machine → γ}

/-- An action leaves a part of the machine as it is. -/
def Keeps (part : Machine → γ) (x : Action α) : Prop := ∀ m, part (stateOf (x m)) = part m

namespace Keeps

theorem bind {x : Action α} {g : α → Action β} (first : Keeps part x)
    (rest : ∀ a, Keeps part (g a)) : Keeps part (x >>= g) := by
  intro m
  have hfirst := first m
  simp only [Bind.bind, EStateM.bind]
  cases hx : x m with
  | error status m' =>
    rw [hx] at hfirst
    exact hfirst
  | ok a m' =>
    rw [hx] at hfirst
    exact (rest a m').trans hfirst

theorem of_charge (aside : ∀ m gas, part { m with gas := gas } = part m) (amount : Nat) :
    Keeps part (charge amount) := by
  intro m
  rw [charge_apply]
  split
  · exact aside m _
  · rfl

theorem stackLaw (aside : ∀ m stack, part { m with stack := stack } = part m) :
    StackLaw fun _ x => Keeps part x where
  pure _ := fun _ => rfl
  throw _ := fun _ => rfl
  bind := bind
  read _ rest := fun m => rest m m
  changeStack _ := fun m => aside m _

theorem actionLaw : ActionLaw fun _ x => Keeps storage x where
  toStackLaw := stackLaw fun _ _ => rfl
  charge := of_charge fun _ _ => rfl
  changeMemory _ := fun _ => rfl

/-- Only the instruction that stores a word touches the storage. -/
theorem of_perform {i : Instruction} (h : i ≠ .storageStore) (f : Frame) (offset : Nat) :
    Keeps storage (perform f offset i) :=
  actionLaw.of_perform
    (fun _ => bind (fun _ => rfl) fun _ => bind (actionLaw.of_push _) fun _ _ => rfl)
    fun stores => absurd stores h

end Keeps

end EvmDispatch.Machine
