import EvmDispatch.Proofs.Machine.ControlFlow
import EvmDispatch.Proofs.Machine.Faults

/-!
# The steps of a run as a stream

What an observer is told of one step fits what it has been told of the step before: the number, the
offset, the gas left and the size of the memory. `LeadsTo` says how the step at one point goes with
the step at the next; a trail is a chain of such pairs, and the last step tells how the run ends.
-/

namespace EvmDispatch.Frame

variable {f : Frame} {settings : Settings} {gas : Int} {p q : Point}

/-! ## Chains -/

/-- What holds of each point and the one behind it makes the trail a chain. -/
theorem isChain_trail {R : Point → Point → Prop}
    (h : ∀ x ∈ f.trail p, ∀ y, f.next? x = some y → R x y) : (f.trail p).IsChain R := by
  induction p using pointInduction f with
  | last p hlast =>
    rw [trail_of_none hlast]
    exact .singleton p
  | step p q hnext ih =>
    have hpq := h p (mem_trail_self f p) q hnext
    rw [trail_of_some hnext] at h ⊢
    have hrest := ih fun x hx => h x (List.mem_cons_of_mem p hx)
    obtain ⟨rest, hq⟩ := trail_eq_cons f q
    rw [hq] at hrest ⊢
    exact .cons_cons hpq hrest

/-- The gas falls strictly, up to the last step, which may be free. -/
theorem isChain_gasLeft (settings : Settings) (p : Point) :
    (p.machine.gas :: ((f.trail p).map (f.stepAt settings)).dropLast.map (·.gasLeft)).IsChain
      (· > ·) := by
  induction p using pointInduction f with
  | last p hlast =>
    rw [trail_of_none hlast]
    exact .singleton _
  | step p q hnext ih =>
    obtain ⟨c, hresult, -⟩ := next?_eq_some hnext
    have hgas : (f.stepAt settings p).gasLeft = q.machine.gas := (stepAt_of_ok settings hresult).1
    have hrest : (f.trail q).map (f.stepAt settings) ≠ [] := by
      obtain ⟨rest, hq⟩ := trail_eq_cons f q
      rw [hq]
      nofun
    rw [trail_of_some hnext, List.map_cons, List.dropLast_cons_of_ne_nil hrest, List.map_cons, hgas]
    exact .cons_cons (next?_gas_lt hnext).1 ih

/-- Every point behind the first one has been reached from the point before it. -/
theorem exists_previous {i : Nat} (h : (f.trail p)[i + 1]? = some q) :
    ∃ x, (f.trail p)[i]? = some x ∧ f.next? x = some q := by
  have hinside := (List.getElem?_eq_some_iff.mp h).1
  have hx : (f.trail p)[i]? = some (f.trail p)[i] := List.getElem?_eq_getElem (by omega)
  exact ⟨_, hx, (getElem?_succ_trail hx).symm.trans h⟩

/-- Points are numbered from the start of the run. -/
theorem index_of_trail {i : Nat} (h : (f.trail p)[i]? = some q) :
    q.index = p.index + UInt32.ofNat i := by
  induction i generalizing q with
  | zero =>
    obtain ⟨rest, hrest⟩ := trail_eq_cons f p
    rw [hrest] at h
    obtain rfl : p = q := by simpa using h
    simp
  | succ i ih =>
    obtain ⟨x, hx, hnext⟩ := exists_previous h
    obtain ⟨c, -, hindex, -⟩ := next?_eq_some hnext
    rw [hindex, ih hx, UInt32.ofNat_add]
    exact UInt32.add_assoc _ _ _

/-! ## From one step to the next -/

/-- How the step at a point is followed by the step at the next one. -/
structure LeadsTo (f : Frame) (settings : Settings) (p q : Point) : Prop where
  status : (f.stepAt settings p).status = .success
  gasLeft : (f.stepAt settings q).gasLeft ≤ (f.stepAt settings p).gasLeft
  memorySize : (f.stepAt settings p).memorySize ≤ (f.stepAt settings q).memorySize
  offset : (∀ target, ¬ f.JumpsTo p target) →
    (f.stepAt settings q).codeOffset =
      (f.stepAt settings p).codeOffset + 1 +
        Instruction.immediateSize (f.stepAt settings p).opcode
  destination : ∀ target, f.JumpsTo p target →
    (f.stepAt settings q).opcode = Instruction.jumpDestinationByte ∧
      (f.stepAt settings q).codeOffset = target.toNat

/-- What goes on somewhere else than behind the instruction has jumped. -/
theorem exists_jumpsTo {goal : Nat} {m : Machine} (h : f.resultAt p = .ok (.jump goal) m) :
    ∃ target, f.JumpsTo p target := by
  obtain ⟨i, hinstruction, paid, effect⟩ := Machine.effect_of_executeAt h
  rw [← priceAt_of_instructionAt? hinstruction] at paid
  cases effect with
  | jump operands index destination => exact ⟨_, .jump hinstruction paid operands⟩
  | @jumpIfTaken _ target condition rest _ operands holds index destination =>
    have hcondition : condition ≠ .zero :=
      (Word.isZero_iff condition).not.mp (ne_true_of_eq_false holds)
    exact ⟨_, .jumpIf hinstruction paid operands hcondition⟩

/-- A jump leads to the value of its operand, which the table marks. -/
theorem JumpsTo.offset_eq {target : Word} (h : f.JumpsTo p target) (hnext : f.next? p = some q) :
    q.offset = target.toNat ∧ f.jumpTargets.getD q.offset false = true := by
  obtain ⟨c, hresult, -, hc⟩ := next?_eq_some hnext
  obtain ⟨m, hjump⟩ := h.resultAt_eq
  obtain ⟨goal, hindex, hgoal, rfl, -⟩ := Machine.jumpTo_eq_ok (hjump.symm.trans hresult)
  rcases hc with ⟨hc, -⟩ | hc
  · cases hc
  · cases hc
    exact ⟨(Word.toNat_of_index? hindex).symm, hgoal⟩

/-- No instruction makes the memory smaller, whether it fails or not. -/
theorem Funded.size_le (hp : Funded gas p) :
    p.machine.memory.size ≤ (Machine.stateOf (f.resultAt p)).memory.size := by
  cases hresult : f.resultAt p with
  | ok c m =>
    obtain ⟨i, -, -, effect⟩ := Machine.effect_of_executeAt hresult
    have hsize : m.memory.size = _ := effect.size_eq hp.size_eq
    have hbefore : p.machine.memory.size = _ := hp.size_eq
    simp only [Machine.stateOf, hsize, Memory.wordsFor] at hbefore ⊢
    omega
  | error status m =>
    obtain ⟨hmemory, -⟩ := hp.of_error hresult
    exact Nat.le_of_eq (congrArg Memory.size hmemory).symm

/-- The steps at two points that follow each other go together. -/
theorem leadsTo_of_next? (hq : Funded gas q) (hnext : f.next? p = some q)
    (marked : ∀ goal, f.jumpTargets.getD goal false = true →
      f.opcodeAt goal = Instruction.jumpDestinationByte) : f.LeadsTo settings p q := by
  obtain ⟨c, hresult, -, hc⟩ := next?_eq_some hnext
  obtain ⟨hgas, hsize⟩ := stepAt_of_ok settings hresult
  refine ⟨?_, ?_, ?_, ?_, ?_⟩
  · rw [stepAt_eq settings hresult]
    rcases hc with ⟨rfl, -⟩ | rfl <;> rfl
  · rw [hgas, gasLeft_stepAt]
    exact gas_resultAt_le f q
  · rw [hsize, memorySize_stepAt]
    exact hq.size_le
  · intro straight
    rw [codeOffset_stepAt, codeOffset_stepAt, opcode_stepAt]
    rcases hc with ⟨-, hoffset⟩ | rfl
    · exact hoffset
    · obtain ⟨target, hjump⟩ := exists_jumpsTo hresult
      exact absurd hjump (straight target)
  · intro target hjump
    obtain ⟨hoffset, hgoal⟩ := hjump.offset_eq hnext
    rw [codeOffset_stepAt, opcode_stepAt]
    exact ⟨marked q.offset hgoal, hoffset⟩

/-- Only jump destinations are marked, in the table of the code as in the empty one. -/
theorem opcodeAt_of_marked {r : Revision} {message : Message} {targets : List Bool}
    (table : targets = Code.jumpTable message.code ∨ targets = []) {goal : Nat}
    (h : (ofMessage r message targets).jumpTargets.getD goal false = true) :
    (ofMessage r message targets).opcodeAt goal = Instruction.jumpDestinationByte := by
  rcases table with rfl | rfl
  · have hdestination := Interpreter.getD_jumpTargets (r := r) goal |>.mp h
    rw [opcodeAt_ofMessage]
    exact hdestination.2.2
  · simp [ofMessage] at h

/-! ## Whole runs -/

/-- The step at the last point tells the status of the run, and the gas that is returned. -/
theorem EndsAt.stepAt (settings : Settings) {status : Status} {gasLeft : Int} {output : Bytes}
    (h : f.EndsAt p status gasLeft output) :
    (f.stepAt settings p).status = status ∧
      (status = .success ∨ status = .revert → gasLeft = (f.stepAt settings p).gasLeft) := by
  cases h with
  | finish result =>
    rw [stepAt_eq settings result]
    exact ⟨rfl, fun _ => rfl⟩
  | fault result =>
    rw [stepAt_eq settings result]
    exact ⟨rfl, fun hstatus => absurd hstatus (not_passed_of_error result)⟩

/-- The steps of an observed run fit together. Whatever the settings, the revision and the message
are, under the table of the jump destinations as under the empty one: there is at least one step;
the number of the `i`-th is `i` modulo `2 ^ 32`; every step but the last is a success, and the step
after it has no more gas left, no smaller memory, and the offset behind the instruction, unless the
instruction jumps, in which case it is a jump destination; the gas falls at each step but the last;
and the last step has the status of the run, and its gas if it completes or asks to be undone. -/
theorem run_step_stream (settings : Settings) (r : Revision) (message : Message)
    (targets : List Bool) (table : targets = Code.jumpTable message.code ∨ targets = []) :
    let f := Frame.ofMessage r message targets
    let points := f.trail (.start settings message.gas)
    let reply := f.run settings message.gas true
    reply.steps = points.map (f.stepAt settings) ∧ reply.steps ≠ [] ∧
      (∀ i s, reply.steps[i]? = some s → s.index.toNat = i % 2 ^ 32) ∧
      points.IsChain (f.LeadsTo settings) ∧
      (message.gas :: reply.steps.dropLast.map (·.gasLeft)).IsChain (· > ·) ∧
      ∃ last, reply.steps.getLast? = some last ∧ last.gasLeft ≤ message.gas ∧
        last.status = reply.status ∧
        (reply.status = .success ∨ reply.status = .revert → reply.gasLeft = last.gasLeft) := by
  intro f points reply
  have hsteps : reply.steps = points.map (f.stepAt settings) := run_steps_observed f settings _
  obtain ⟨p, hp, hends⟩ := run_ends f settings message.gas true
  obtain ⟨hstatus, hgasLeft⟩ := hends.stepAt settings
  have hlast : reply.steps.getLast? = some (f.stepAt settings p) := by
    rw [hsteps, List.getLast?_map, hp]
    rfl
  have hfunded := funded_of_mem_trail (List.mem_of_getLast? hp)
  refine ⟨hsteps, ?_, ?_, ?_, ?_, f.stepAt settings p, hlast, ?_, hstatus, hgasLeft⟩
  · intro hnil
    rw [hnil] at hlast
    cases hlast
  · intro i s hs
    rw [hsteps, List.getElem?_map, Option.map_eq_some_iff] at hs
    obtain ⟨q, hq, rfl⟩ := hs
    rw [index_stepAt, index_of_trail hq]
    simp [Point.start]
  · refine isChain_trail fun x hx y hnext => ?_
    exact leadsTo_of_next? (funded_of_mem_trail (mem_trail_of_next? hx hnext)) hnext
      fun goal => opcodeAt_of_marked table
  · rw [hsteps]
    exact isChain_gasLeft settings (.start settings message.gas)
  · have hpaid := hfunded.paid_after (f := f)
    rw [gasLeft_stepAt]
    omega

/-- A code that counts down from two in a loop, stores a word, and asks to be undone. -/
theorem run_step_stream_countdown :
    let message : Message :=
      { gas := 1000
        code := [0x60, 0x02, 0x5b, 0x60, 0x01, 0x90, 0x03, 0x80, 0x60, 0x02, 0x57, 0x60, 0x20,
          0x52, 0x60, 0x01, 0x60, 0x00, 0xfd] }
    let targets := Code.jumpTable message.code
    let f := Frame.ofMessage .byzantium message targets
    let points := f.trail (.start {} message.gas)
    let reply := f.run {} message.gas true
    (targets = Code.jumpTable message.code ∨ targets = []) ∧
      reply.steps = points.map (f.stepAt {}) ∧ reply.steps ≠ [] ∧
      (∀ i s, reply.steps[i]? = some s → s.index.toNat = i % 2 ^ 32) ∧
      points.IsChain (f.LeadsTo {}) ∧
      (message.gas :: reply.steps.dropLast.map (·.gasLeft)).IsChain (· > ·) ∧
      ∃ last, reply.steps.getLast? = some last ∧ last.gasLeft ≤ message.gas ∧
        last.status = reply.status ∧
        (reply.status = .success ∨ reply.status = .revert → reply.gasLeft = last.gasLeft) := by
  intro message targets f points reply
  have table : targets = Code.jumpTable message.code ∨ targets = [] := .inl rfl
  exact ⟨table, run_step_stream {} .byzantium message targets table⟩

end EvmDispatch.Frame
