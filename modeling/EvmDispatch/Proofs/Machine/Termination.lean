import EvmDispatch.Proofs.Machine.Trail

/-!
# Every run ends

Nothing in the code of a frame says how often it loops. The gas at the start bounds the steps all
the same: an instruction after which the execution goes on takes at least one unit of it and leaves
no debt. `Frame.runWithin` is the loop of a run without this argument built in: it is told how many
steps it may take, and gives up after them. It does not give up if it may take one step more than
there is gas.
-/

namespace EvmDispatch.Frame

/-- Runs a frame from a point on for at most a number of steps. -/
def runWithin (f : Frame) (settings : Settings) (observed : Bool) :
    Nat → Array Step → Point → Option Reply
  | 0, _, _ => none
  | n + 1, steps, p =>
    let steps := f.record settings observed steps p.index p.offset (f.resultAt p)
    match f.resultAt p with
    | .ok .next m =>
      f.runWithin settings observed n steps
        ⟨p.index + 1, p.offset + 1 + Instruction.immediateSize (f.opcodeAt p.offset), m⟩
    | .ok (.jump target) m => f.runWithin settings observed n steps ⟨p.index + 1, target, m⟩
    | .ok (.finish reverts start size) m =>
      some
        { status := (Control.finish reverts start size).status
          gasLeft := m.gas
          output := m.memory.slice start size
          steps := steps.toList }
    | .error status _ => some { status, steps := steps.toList }

variable {f : Frame} {settings : Settings} {observed : Bool}

theorem runWithin_of_some {n : Nat} {steps : Array Step} {p q : Point} (h : f.next? p = some q) :
    f.runWithin settings observed (n + 1) steps p =
      f.runWithin settings observed n
        (f.record settings observed steps p.index p.offset (f.resultAt p)) q := by
  rw [runWithin]
  unfold next? at h
  split at h
  · rename_i m hresult
    cases h
    rw [hresult]
  · rename_i target m hresult
    cases h
    rw [hresult]
  · cases h

theorem runWithin_of_none {n : Nat} {steps : Array Step} {p : Point} (h : f.next? p = none) :
    f.runWithin settings observed (n + 1) steps p =
      some (f.runFrom settings observed steps p.index p.offset p.machine) := by
  rw [runWithin]
  rcases next?_eq_none h with ⟨reverts, start, size, m, hresult⟩ | ⟨status, m, hresult⟩
  · rw [runFrom_of_finish hresult, hresult]
  · rw [runFrom_of_error hresult, hresult]

/-- The bound is compared with the number of points on the trail, and has no other effect. -/
theorem runWithin_eq (n : Nat) (steps : Array Step) (p : Point) :
    f.runWithin settings observed n steps p =
      if (f.trail p).length ≤ n then
        some (f.runFrom settings observed steps p.index p.offset p.machine)
      else none := by
  induction n generalizing steps p with
  | zero =>
    obtain ⟨rest, hrest⟩ := trail_eq_cons f p
    have hlength : ¬(f.trail p).length ≤ 0 := by
      rw [hrest, List.length_cons]
      omega
    rw [if_neg hlength, runWithin]
  | succ n ih =>
    cases hnext : f.next? p with
    | none =>
      have hlength : (f.trail p).length ≤ n + 1 := by
        rw [trail_of_none hnext, List.length_singleton]
        omega
      rw [if_pos hlength, runWithin_of_none hnext]
    | some q =>
      rw [runWithin_of_some hnext, ih, runFrom_of_some hnext, trail_of_some hnext,
        List.length_cons]
      by_cases hlength : (f.trail q).length ≤ n
      · rw [if_pos hlength, if_pos (by omega)]
      · rw [if_neg hlength, if_neg (by omega)]

/-- Each point of a trail has less gas than the one before it. -/
theorem length_trail_le (p : Point) : (f.trail p).length ≤ p.machine.gas.toNat + 1 := by
  induction p using pointInduction f with
  | last p h =>
    rw [trail_of_none h, List.length_singleton]
    omega
  | step p q h ih =>
    have hgas := next?_gas_lt h
    rw [trail_of_some h, List.length_cons]
    omega

/-- What a run shows that does not give up, any run shows. -/
theorem of_runWithin {gas : Int} {n : Nat} (check : Reply → Bool)
    (h : (f.runWithin settings observed n #[] (.start settings gas)).any check = true) :
    check (f.run settings gas observed) = true := by
  rw [runWithin_eq] at h
  split at h
  · exact h
  · cases h

/-- Every run ends, whatever loops its code has, and takes at most one step more than there is gas
at the start; with no gas, or with a debt, it ends at its first step. For in whatever state an
instruction is carried out, if the execution goes on after it then there is less gas than before,
and no debt. -/
theorem run_ends_within_gas (f : Frame) (settings : Settings) (gas : Int) :
    (∀ offset m c m', f.executeAt offset m = .ok c m' →
      (c = .next ∨ ∃ target, c = .jump target) → m'.gas ≤ m.gas - 1 ∧ 0 ≤ m'.gas) ∧
    (∀ observed, f.runWithin settings observed ((max gas 0).toNat + 1) #[] (.start settings gas) =
      some (f.run settings gas observed)) ∧
    ((f.run settings gas true).steps.length : Int) ≤ max gas 0 + 1 := by
  have htrail := f.length_trail_le (.start settings gas)
  have hgas : (Point.start settings gas).machine.gas = gas := rfl
  rw [hgas] at htrail
  refine ⟨?_, ?_, ?_⟩
  · intro offset m c m' h continues
    have hlt : m'.gas < m.gas ∧ 0 ≤ m'.gas := by
      refine Machine.executeAt_gas_lt h ?_
      rintro reverts start size rfl
      rcases continues with hc | ⟨target, hc⟩ <;> cases hc
    omega
  · intro observed
    rw [runWithin_eq, if_pos (by omega)]
    rfl
  · rw [run_steps, if_pos rfl, List.length_map]
    omega

end EvmDispatch.Frame
