import EvmDispatch.Proofs.Machine.Effect
import EvmDispatch.Proofs.Machine.Trail
import Mathlib.Algebra.GroupWithZero.Nat

/-!
# Where the gas goes

The gas of a machine together with what its memory is worth is a potential: an instruction lowers it
by its price and its surcharge, however the memory grows. Along a trail the differences add up, so
that after every step the gas spent is the sum of all prices and surcharges so far and the price of
the memory as it is then.
-/

namespace EvmDispatch

/-! ## One instruction -/

/-- What an instruction costs besides its price and the growth of the memory: storing a word costs
20000 if it fills an empty slot and 5000 otherwise, and the data of a log entry cost 8 for each
byte. -/
def Instruction.surcharge (m : Machine) : Instruction → Nat
  | storageStore =>
    match m.stack.items with
    | key :: value :: _ => if m.storage.load key = .zero ∧ value ≠ .zero then 20000 else 5000
    | _ => 0
  | log _ =>
    match m.stack.items with
    | _ :: size :: _ => 8 * size.toNat
    | _ => 0
  | _ => 0

namespace Machine

variable {m m' : Machine}

/-- What growing takes from the gas it adds to the worth of the memory. -/
theorem grown_potential (m : Machine) (start size : Nat) :
    (m.grown start size).gas + (m.grown start size).memory.worth = m.gas + m.memory.worth := by
  have hworth := m.memory.worth_le_expanded start size
  simp only [grown, growthPrice]
  omega

theorem RangeGrowth.potential {address size : Word} {range : Nat × Nat}
    (h : RangeGrowth m address size range m') :
    m'.gas + m'.memory.worth = m.gas + m.memory.worth := by
  cases h with
  | empty zero => rfl
  | @range start count counted pos can => exact grown_potential m start count

theorem RangeGrowth.dvd_size {address size : Word} {range : Nat × Nat}
    (h : RangeGrowth m address size range m') (hm : 32 ∣ m.memory.size) :
    32 ∣ m'.memory.size := by
  cases h with
  | empty zero => exact hm
  | range counted pos can => exact Memory.dvd_size_expanded hm

/-- A word costs more where there was none. -/
theorem storePrice_eq (current value : Word) :
    storePrice (current.isZero && !value.isZero) =
      if current = .zero ∧ value ≠ .zero then 20000 else 5000 := by
  have hempty : current.isZero = decide (current = .zero) := by
    rw [Bool.eq_iff_iff, Word.isZero_iff, decide_eq_true_iff]
  have hfills : value.isZero = decide (value = .zero) := by
    rw [Bool.eq_iff_iff, Word.isZero_iff, decide_eq_true_iff]
  rw [hempty, hfills, storePrice]
  by_cases hcurrent : current = .zero <;> by_cases hvalue : value = .zero <;>
    simp [hcurrent, hvalue]

/-- Beyond its price an instruction costs its surcharge and the growth of the memory. -/
theorem Effect.potential {f : Frame} {offset : Nat} {i : Instruction} {c : Control}
    (h : Effect f offset i m c m') :
    m'.gas + m'.memory.worth + i.surcharge m = m.gas + m.memory.worth := by
  cases h with
  | @memoryLoad _ _ _ start operands can room =>
    have hgrown := grown_potential m start 32
    simpa [Instruction.surcharge] using hgrown
  | @memoryStore _ _ _ _ start operands can =>
    have hgrown := grown_potential m start 32
    simpa [Instruction.surcharge] using hgrown
  | @memoryStoreByte _ _ _ _ start operands can =>
    have hgrown := grown_potential m start 1
    simpa [Instruction.surcharge] using hgrown
  | @storageStore _ key value rest price mayChange operands priced paid =>
    rw [storePrice_eq] at priced
    have hsurcharge : Instruction.surcharge m .storageStore = price := by
      simp only [Instruction.surcharge, operands]
      exact priced.symm
    rw [hsurcharge]
    show m.gas - price + m.memory.worth + price = m.gas + m.memory.worth
    omega
  | @log _ _ topics count start size dropped rest range mayChange operands _ counted paid grows =>
    have hsurcharge : Instruction.surcharge m (.log topics) = logDataPrice count := by
      simp only [Instruction.surcharge, operands]
      rw [Word.toNat_of_index? counted, logDataPrice]
    have hgrown : m'.gas + m'.memory.worth = m.gas - logDataPrice count + m.memory.worth :=
      grows.potential
    rw [hsurcharge, hgrown]
    omega
  | halt operands grows =>
    have hgrown := grows.potential
    simpa [Instruction.surcharge] using hgrown
  | revert operands grows =>
    have hgrown := grows.potential
    simpa [Instruction.surcharge] using hgrown
  | _ => simp [Instruction.surcharge]

/-- No instruction leaves a memory that does not consist of whole words. -/
theorem Effect.dvd_size {f : Frame} {offset : Nat} {i : Instruction} {c : Control}
    (h : Effect f offset i m c m') (hm : 32 ∣ m.memory.size) : 32 ∣ m'.memory.size := by
  cases h with
  | @memoryLoad _ _ _ start operands can room =>
    have hgrown : 32 ∣ (m.memory.expanded start 32).size := Memory.dvd_size_expanded hm
    simpa [grown] using hgrown
  | @memoryStore _ _ _ _ start operands can =>
    have hgrown : 32 ∣ (m.memory.expanded start 32).size := Memory.dvd_size_expanded hm
    simpa [grown] using hgrown
  | @memoryStoreByte _ _ _ _ start operands can =>
    have hgrown : 32 ∣ (m.memory.expanded start 1).size := Memory.dvd_size_expanded hm
    simpa [grown] using hgrown
  | log mayChange operands _ counted paid grows => exact grows.dvd_size hm
  | halt operands grows => exact grows.dvd_size hm
  | revert operands grows => exact grows.dvd_size hm
  | _ => exact hm

end Machine

/-! ## A whole run -/

namespace Frame

variable {f : Frame}

/-- The price of the instruction at a point. -/
def priceAt (f : Frame) (p : Point) : Nat :=
  Instruction.priceOfByte f.revision (f.opcodeAt p.offset)

/-- The surcharge of the instruction at a point. -/
def surchargeAt (f : Frame) (p : Point) : Nat :=
  ((Instruction.ofByte? (f.opcodeAt p.offset)).map (·.surcharge p.machine)).getD 0

/-- What the instructions at some points have cost if the memory has so many bytes afterwards. -/
def spent (f : Frame) (points : List Point) (memorySize : Nat) : Nat :=
  (points.map f.priceAt).sum + Memory.wordsPrice (memorySize / 32) +
    (points.map f.surchargeAt).sum

/-- An instruction that does not fail lowers the potential by its price and its surcharge. -/
theorem potential_of_resultAt {p : Point} {c : Control} {m : Machine}
    (h : f.resultAt p = .ok c m) :
    m.gas + m.memory.worth + f.priceAt p + f.surchargeAt p =
      p.machine.gas + p.machine.memory.worth := by
  obtain ⟨i, hbyte, paid, effect⟩ := Machine.effect_of_executeAt h
  have hprice : f.priceAt p = i.price f.revision := Instruction.priceOfByte_of_ofByte? hbyte
  have hsurcharge : f.surchargeAt p = i.surcharge p.machine := by
    rw [surchargeAt, hbyte]
    rfl
  have hpaid : i.surcharge { p.machine with gas := p.machine.gas - i.price f.revision } =
      i.surcharge p.machine := by
    cases i <;> rfl
  have hpotential := effect.potential
  rw [hpaid] at hpotential
  rw [hprice, hsurcharge]
  have hmemory : m.gas + m.memory.worth + i.surcharge p.machine =
      p.machine.gas - i.price f.revision + p.machine.memory.worth := hpotential
  omega

/-- Along a trail the prices and surcharges add up. -/
theorem potential_of_trail {p q : Point} {i : Nat} {c : Control} {m : Machine}
    (hq : (f.trail p)[i]? = some q) (h : f.resultAt q = .ok c m) :
    m.gas + m.memory.worth + (((f.trail p).take (i + 1)).map f.priceAt).sum +
        (((f.trail p).take (i + 1)).map f.surchargeAt).sum =
      p.machine.gas + p.machine.memory.worth := by
  -- the first point lowers the potential by its own costs, and the rest of the trail by theirs
  induction p using pointInduction f generalizing i with
  | last p hlast =>
    rw [trail_of_none hlast] at hq ⊢
    cases i with
    | zero =>
      obtain rfl : p = q := by simpa using hq
      have hstep := potential_of_resultAt h
      simpa using hstep
    | succ i => simp at hq
  | step p p' hnext ih =>
    rw [trail_of_some hnext] at hq ⊢
    cases i with
    | zero =>
      obtain rfl : p = q := by simpa using hq
      have hstep := potential_of_resultAt h
      simpa using hstep
    | succ i =>
      rw [List.getElem?_cons_succ] at hq
      have hrest := ih hq
      obtain ⟨c', hresult, -⟩ := next?_eq_some hnext
      have hstep := potential_of_resultAt hresult
      rw [List.take_succ_cons, List.map_cons, List.map_cons, List.sum_cons, List.sum_cons]
      omega

theorem dvd_size_of_resultAt {p : Point} {c : Control} {m : Machine}
    (hp : 32 ∣ p.machine.memory.size) (h : f.resultAt p = .ok c m) : 32 ∣ m.memory.size := by
  obtain ⟨i, -, -, effect⟩ := Machine.effect_of_executeAt h
  exact effect.dvd_size hp

/-- After a step that does not fail, the gas spent is known. -/
theorem spent_of_trail {settings : Settings} {gas : Int} {q : Point} {i : Nat} {c : Control}
    {m : Machine} (hq : (f.trail (.start settings gas))[i]? = some q)
    (h : f.resultAt q = .ok c m) :
    gas - m.gas = f.spent ((f.trail (.start settings gas)).take (i + 1)) m.memory.size := by
  -- only a memory of whole words is worth what its size says
  have haligned : 32 ∣ q.machine.memory.size := by
    refine forall_mem_trail (fun p => 32 ∣ p.machine.memory.size) ?_ ?_ q
      (List.mem_of_getElem? hq)
    · intro p p' hp hnext
      obtain ⟨c', hresult, -⟩ := next?_eq_some hnext
      exact dvd_size_of_resultAt hp hresult
    · exact Nat.dvd_zero 32
  have hworth := Memory.worth_of_dvd (dvd_size_of_resultAt haligned h)
  have hpotential := potential_of_trail hq h
  have hstart : (Point.start settings gas).machine.gas +
      (Point.start settings gas).machine.memory.worth = gas := by
    simp [Point.start, Memory.worth, Memory.wordsFor, Memory.wordsPrice]
  rw [hstart, hworth] at hpotential
  rw [spent]
  omega

/-- What the end of a run leaves. -/
theorem EndsAt.account {settings : Settings} {gas gasLeft : Int} {last : Point} {status : Status}
    {output : Bytes} (h : f.EndsAt last status gasLeft output)
    (hlast : (f.trail (.start settings gas)).getLast? = some last) :
    if status = .success ∨ status = .revert then
      0 ≤ gasLeft ∧ gas - gasLeft =
        f.spent (f.trail (.start settings gas)) (f.stepAt settings last).memorySize
    else gasLeft = 0 ∧ output = [] := by
  cases h with
  | @finish reverts start size m hresult =>
    rw [if_pos (by cases reverts <;> simp), (stepAt_of_ok settings hresult).2]
    refine ⟨Machine.executeAt_gas_nonneg hresult, ?_⟩
    rw [List.getLast?_eq_getElem?] at hlast
    have hspent := spent_of_trail hlast hresult
    rwa [List.take_of_length_le (by omega)] at hspent
  | fault hresult =>
    rw [if_neg (not_passed_of_error hresult)]
    exact ⟨rfl, rfl⟩

/-- The gas of a run is accounted for to the last unit. Whatever the settings, the revision, the
message and the jump destinations are, the gas spent after a step that does not fail is the sum of
the prices and the surcharges so far and of the price of the memory as the step reports it. A run
that completes or asks to be undone gives back the rest, and any other run gives back nothing. -/
theorem run_gas_accounting (settings : Settings) (r : Revision) (message : Message)
    (jumpTargets : List Bool) :
    let f := Frame.ofMessage r message jumpTargets
    let points := f.trail (.start settings message.gas)
    let steps := (f.run settings message.gas true).steps
    steps = points.map (f.stepAt settings) ∧
      (∀ i step, steps[i]? = some step → step.status = .success ∨ step.status = .revert →
        message.gas - step.gasLeft = f.spent (points.take (i + 1)) step.memorySize) ∧
      ∀ observed,
        let reply := f.run settings message.gas observed
        if reply.status = .success ∨ reply.status = .revert then
          0 ≤ reply.gasLeft ∧ reply.gasLeft ≤ message.gas ∧
            ∃ last, steps.getLast? = some last ∧
              message.gas - reply.gasLeft = f.spent points last.memorySize
        else reply.gasLeft = 0 ∧ reply.output = [] := by
  intro f points steps
  have hsteps : steps = points.map (f.stepAt settings) := by
    rw [show steps = _ from run_steps f settings message.gas true]
    rfl
  refine ⟨hsteps, ?_, ?_⟩
  · intro i step hstep hstatus
    rw [hsteps, List.getElem?_map, Option.map_eq_some_iff] at hstep
    obtain ⟨p, hp, rfl⟩ := hstep
    obtain ⟨c, m, hresult⟩ := ok_of_stepAt hstatus
    obtain ⟨hgas, hsize⟩ := stepAt_of_ok settings hresult
    rw [hgas, hsize]
    exact spent_of_trail hp hresult
  · intro observed reply
    obtain ⟨p, hp, hends⟩ := run_ends f settings message.gas observed
    have hlast : steps.getLast? = some (f.stepAt settings p) := by
      rw [hsteps, List.getLast?_map, hp]
      rfl
    have haccount := hends.account hp
    split
    · rename_i hstatus
      rw [if_pos hstatus] at haccount
      obtain ⟨hgas, hspent⟩ := haccount
      have hspent : message.gas - reply.gasLeft =
          f.spent points (f.stepAt settings p).memorySize := hspent
      exact ⟨hgas, by omega, f.stepAt settings p, hlast, hspent⟩
    · rename_i hstatus
      rw [if_neg hstatus] at haccount
      exact haccount

end Frame

end EvmDispatch
