import EvmDispatch.Proofs.Checked.Machine
import EvmDispatch.Proofs.Machine.Termination

/-!
# No run traps

A run with checked operations is the run without the checks: no number in it leaves its type, and no
index or range what it is taken from. The offsets of a run stay near the code or in the table of
jump destinations, since what is behind the code stops; the range of the output is inside the
memory, since nothing runs after the instruction that has made it accessible; and every other rule
is kept because the machine is sound at every point.
-/

namespace EvmDispatch

/-- The range that an instruction has paid for is covered afterwards. -/
theorem Machine.RangeGrowth.covers {m m' : Machine} {address size : Word} {range : Nat × Nat}
    (h : RangeGrowth m address size range m') : m'.memory.covers range.1 range.2 = true := by
  cases h with
  | empty zero => rfl
  | range counted pos can => exact m.memory.covers_expanded _ _

/-- The range that an instruction ends the execution with lies inside the memory. -/
theorem Machine.Effect.covers {f : Frame} {offset : Nat} {i : Instruction} {m m' : Machine}
    {reverts : Bool} {start size : Nat} (h : Effect f offset i m (.finish reverts start size) m') :
    m'.memory.covers start size = true := by
  cases h with
  | stop => rfl
  | halt operands grows => exact grows.covers
  | revert operands grows => exact grows.covers

namespace Guarded

/-- Runs a frame with checked operations from a point on for at most a number of steps. -/
def runWithin (f : Frame) (settings : Settings) (observed : Bool) :
    Nat → Array Step → Point → Except Trap (Option Reply)
  | 0, _, _ => .ok none
  | n + 1, steps, p =>
    match executeAt f p.offset p.machine with
    | .ok c m =>
      let steps := f.record settings observed steps p.index p.offset (.ok c m)
      match c with
      | .next => do
        let offset ← Checked.nextOffset (f.opcodeAt p.offset) p.offset
        runWithin f settings observed n steps ⟨p.index + 1, offset, m⟩
      | .jump target => runWithin f settings observed n steps ⟨p.index + 1, target, m⟩
      | .finish reverts start size => do
        let output ← Checked.slice m.memory start size
        return some
          { status := (Control.finish reverts start size).status
            gasLeft := m.gas
            output
            steps := steps.toList }
    | .error (.fault status) m =>
      let steps := f.record settings observed steps p.index p.offset (.error status m)
      .ok (some { status, steps := steps.toList })
    | .error (.trap reason) _ => .error reason

/-- What is known of every point of a run. -/
structure Reached (p : Point) : Prop where
  sound : Sound p.machine
  offset_lt : p.offset < 2 ^ 63 + 32

variable {f : Frame}

/-- At a point that is reached, what the checked machine executes is what the machine does. -/
theorem Reached.agrees {p : Point} (hf : f.Addressable) (hp : Reached p) :
    Agrees (executeAt f p.offset) (f.executeAt p.offset) p.machine := by
  have hoffset := hp.offset_lt
  exact .of_executeAt hf (by omega) hp.sound

theorem Reached.sound_of_ok {p : Point} (hf : f.Addressable) (hp : Reached p) {c : Control}
    {m : Machine} (h : f.resultAt p = .ok c m) : Sound m := by
  have hsound := (hp.agrees hf).sound
  unfold Frame.resultAt at h
  rwa [h] at hsound

/-- The point after one that is reached is reached as well. -/
theorem Reached.next {p q : Point} (hf : f.Addressable) (hp : Reached p) (h : f.next? p = some q) :
    Reached q := by
  obtain ⟨c, hresult, -, hc⟩ := Frame.next?_eq_some h
  refine ⟨hp.sound_of_ok hf hresult, ?_⟩
  rcases hc with ⟨rfl, hoffset⟩ | rfl
  · have hinside := Machine.offset_lt_of_next hresult
    have hcode := hf.code
    have hsize := Checked.immediateSize_le (f.opcodeAt p.offset)
    omega
  · have htarget := Machine.target_lt_of_jump hresult
    have htable := hf.jumpTargets
    omega

variable {settings : Settings} {observed : Bool}

/-- A run with checked operations does not trap, and is the run without the checks. -/
theorem runWithin_eq (hf : f.Addressable) (n : Nat) (steps : Array Step) {p : Point}
    (hp : Reached p) :
    runWithin f settings observed n steps p = .ok (f.runWithin settings observed n steps p) := by
  induction n generalizing steps p with
  | zero => rfl
  | succ n ih =>
    have happly := (hp.agrees hf).apply
    unfold lift EStateM.adaptExcept at happly
    rw [runWithin, Frame.runWithin, happly]
    cases hresult : f.resultAt p with
    | error status m =>
      have hexecute : f.executeAt p.offset p.machine = .error status m := hresult
      simp only [hexecute]
    | ok c m =>
      have hexecute : f.executeAt p.offset p.machine = .ok c m := hresult
      have hsound := hp.sound_of_ok hf hresult
      simp only [hexecute]
      cases c with
      | next =>
        have hinside := Machine.offset_lt_of_next hresult
        have hcode := hf.code
        have hnext : f.next? p = some ⟨p.index + 1,
            p.offset + 1 + Instruction.immediateSize (f.opcodeAt p.offset), m⟩ := by
          rw [Frame.next?, hresult]
        rw [Checked.nextOffset_eq (by omega), Checked.ok_bind]
        exact ih _ (hp.next hf hnext)
      | jump target =>
        have hnext : f.next? p = some ⟨p.index + 1, target, m⟩ := by
          rw [Frame.next?, hresult]
        exact ih _ (hp.next hf hnext)
      | finish reverts start size =>
        obtain ⟨i, -, -, effect⟩ := Machine.effect_of_executeAt hresult
        dsimp only
        rw [Checked.slice_eq hsound.bounded effect.covers]
        rfl

/-- A run starts at a point that is reached, if its gas is a number of 64 bits. -/
theorem reached_start {gas : Int} (hgas : -2 ^ 63 ≤ gas ∧ gas < 2 ^ 63) :
    Reached (.start settings gas) where
  sound := ⟨Nat.dvd_zero 32, Nat.zero_le _, hgas.1, hgas.2⟩
  offset_lt := by simp [Point.start]

/-- After every step the memory has whole words, and no more than the greatest memory has, whether
the step fails or not. -/
theorem Reached.memorySize {p : Point} (hf : f.Addressable) (hp : Reached p) :
    32 ∣ (f.stepAt settings p).memorySize ∧ (f.stepAt settings p).memorySize ≤ 2 ^ 32 := by
  have hsound : Sound (Machine.stateOf (f.resultAt p)) := (hp.agrees hf).sound
  cases hresult : f.resultAt p with
  | ok c m =>
    rw [hresult] at hsound
    rw [Frame.stepAt_eq settings hresult]
    exact ⟨hsound.aligned, hsound.bounded⟩
  | error status m =>
    rw [hresult] at hsound
    rw [Frame.stepAt_eq settings hresult]
    exact ⟨hsound.aligned, hsound.bounded⟩

end Guarded

/-- No run traps. Whatever the code, the call data, the settings, the revision and the gas are, as
long as they are sequences and numbers of an address space of 64 bits, the run in which every
number, index and range is checked ends, and it ends as the run without the checks does; and the
size of the memory is at all times a multiple of 32 and at most `2 ^ 32`. -/
theorem Frame.run_never_traps (f : Frame) (hf : f.Addressable) (settings : Settings) (gas : Int)
    (hgas : -2 ^ 63 ≤ gas ∧ gas < 2 ^ 63) :
    (∀ observed, Guarded.runWithin f settings observed ((max gas 0).toNat + 1) #[]
      (.start settings gas) = .ok (some (f.run settings gas observed))) ∧
    ∀ s ∈ (f.run settings gas true).steps, 32 ∣ s.memorySize ∧ s.memorySize ≤ 2 ^ 32 := by
  have hstart : Guarded.Reached (.start settings gas) := Guarded.reached_start hgas
  refine ⟨?_, ?_⟩
  · intro observed
    have htrail := f.length_trail_le (.start settings gas)
    have hgas : (Point.start settings gas).machine.gas = gas := rfl
    rw [hgas] at htrail
    rw [Guarded.runWithin_eq hf _ _ hstart, runWithin_eq, if_pos (by omega)]
    rfl
  · intro s hs
    rw [run_steps_observed, List.mem_map] at hs
    obtain ⟨p, hp, rfl⟩ := hs
    have hreached := forall_mem_trail Guarded.Reached (fun p q hp hnext => hp.next hf hnext) hstart
    exact (hreached p hp).memorySize hf

/-- A code that asks for the gas, stores it across two words of the memory, loads from the second,
and ends with a range of both as output. -/
theorem Frame.run_never_traps_memory :
    let f := Frame.ofMessage .constantinople
      { code := [0x5a, 0x60, 0x05, 0x52, 0x60, 0x25, 0x51, 0x60, 0x07, 0x60, 0x1e, 0xf3] } []
    f.Addressable ∧ (-2 ^ 63 ≤ (100 : Int) ∧ (100 : Int) < 2 ^ 63) ∧
      (∀ observed, Guarded.runWithin f {} observed ((max (100 : Int) 0).toNat + 1) #[]
        (.start {} 100) = .ok (some (f.run {} 100 observed))) ∧
      ∀ s ∈ (f.run {} 100 true).steps, 32 ∣ s.memorySize ∧ s.memorySize ≤ 2 ^ 32 := by
  intro f
  have hf : f.Addressable := ⟨by decide, by decide, by decide⟩
  have hgas : -2 ^ 63 ≤ (100 : Int) ∧ (100 : Int) < 2 ^ 63 := by decide
  exact ⟨hf, hgas, run_never_traps f hf {} 100 hgas⟩

end EvmDispatch
