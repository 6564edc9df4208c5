import EvmDispatch.Proofs.Machine.Accounting
import EvmDispatch.Proofs.Machine.Contents

/-!
# Two runs side by side

A law about two runs compares their trails. If a map of points goes along with the steps of a trail,
then the image of the trail is a trail (`trail_map`); and up to the first point where they part, two
frames have the same trail (`trail_append`). What a run tells of its trail are its steps, and its
end, which is that of the last point (`run_eq_of_endsAt`).
-/

namespace EvmDispatch.Frame

variable {f g : Frame} {settings : Settings} {gas : Int} {observed : Bool}

/-! ## Along one trail -/

theorem mem_trail_self (f : Frame) (p : Point) : p ∈ f.trail p := by
  obtain ⟨rest, hrest⟩ := trail_eq_cons f p
  rw [hrest]
  exact List.mem_cons_self

/-- The next entry of a trail is where the execution goes on, and there is none if it does not. -/
theorem getElem?_succ_trail {p q : Point} {i : Nat} (h : (f.trail p)[i]? = some q) :
    (f.trail p)[i + 1]? = f.next? q := by
  induction p using pointInduction f generalizing i with
  | last p hlast =>
    rw [trail_of_none hlast] at h ⊢
    cases i with
    | zero =>
      obtain rfl : p = q := by simpa using h
      rw [hlast]
      rfl
    | succ i => simp at h
  | step p p' hnext ih =>
    rw [trail_of_some hnext] at h ⊢
    rw [List.getElem?_cons_succ]
    cases i with
    | zero =>
      obtain rfl : p = q := by simpa using h
      obtain ⟨rest, hrest⟩ := trail_eq_cons f p'
      rw [hrest, hnext]
      rfl
    | succ i => exact ih h

/-- What comes after a point of a trail is on the trail. -/
theorem mem_trail_of_next? {p q q' : Point} (hq : q ∈ f.trail p) (h : f.next? q = some q') :
    q' ∈ f.trail p := by
  obtain ⟨i, hi⟩ := List.mem_iff_getElem?.mp hq
  exact List.mem_of_getElem? ((getElem?_succ_trail hi).trans h)

/-- A trail ends where the execution does not go on. -/
theorem length_trail {p q : Point} {i : Nat} (hq : (f.trail p)[i]? = some q)
    (h : f.next? q = none) : (f.trail p).length = i + 1 := by
  have hinside := (List.getElem?_eq_some_iff.mp hq).1
  have hend := List.getElem?_eq_none_iff.mp ((getElem?_succ_trail hq).trans h)
  omega

theorem getLast?_trail {p q : Point} (hq : q ∈ f.trail p) (h : f.next? q = none) :
    (f.trail p).getLast? = some q := by
  obtain ⟨i, hi⟩ := List.mem_iff_getElem?.mp hq
  rw [List.getLast?_eq_getElem?, length_trail hi h]
  exact hi

theorem next?_of_error {p : Point} {status : Status} {m : Machine}
    (h : f.resultAt p = .error status m) : f.next? p = none := by
  rw [next?, h]

theorem priceAt_of_instructionAt? {p : Point} {i : Instruction} (h : f.instructionAt? p = some i) :
    f.priceAt p = i.price f.revision := by
  exact Instruction.priceOfByte_of_ofByte? h

/-- An instruction that all revisions have is carried out if its price can be paid. -/
theorem resultAt_of_instructionAt? {p : Point} {i : Instruction} (h : f.instructionAt? p = some i)
    (first : i.introducedIn = .frontier) (valid : i ≠ .invalid) :
    f.resultAt p =
      if (f.priceAt p : Int) ≤ p.machine.gas then
        Machine.perform f p.offset i { p.machine with gas := p.machine.gas - f.priceAt p }
      else .error .outOfGas p.machine := by
  have hbyte : Instruction.ofByte? (f.opcodeAt p.offset) = some i := h
  have hi : Instruction.executable? f.revision (f.opcodeAt p.offset) = some i := by
    have hnew : Revision.frontier ≤ f.revision := Nat.zero_le _
    simp [Instruction.executable?, Instruction.ofOpcode?, hbyte, first, valid, hnew]
  rw [priceAt_of_instructionAt? h]
  exact Machine.executeAt_apply p.machine hi

/-- A run is told by its trail and by how its last point ends. -/
theorem run_eq_of_endsAt {last : Point} {status : Status} {gasLeft : Int} {output : Bytes}
    (hlast : (f.trail (.start settings gas)).getLast? = some last)
    (hends : f.EndsAt last status gasLeft output) :
    f.run settings gas observed =
      { status, gasLeft, output
        steps :=
          if observed then (f.trail (.start settings gas)).map (f.stepAt settings) else [] } := by
  obtain ⟨last', hlast', hends'⟩ := run_ends f settings gas observed
  obtain rfl := Option.some.inj (hlast.symm.trans hlast')
  obtain ⟨hstatus, hgasLeft, houtput⟩ := hends.unique hends'
  have hsteps := run_steps f settings gas observed
  generalize f.run settings gas observed = reply at hstatus hgasLeft houtput hsteps ⊢
  obtain ⟨status', gasLeft', output', steps'⟩ := reply
  subst hstatus hgasLeft houtput hsteps
  rfl

/-- A run fails by the status of an instruction that fails. -/
theorem run_status_of_error {p : Point} {status : Status} {m : Machine}
    (hp : p ∈ f.trail (.start settings gas)) (h : f.resultAt p = .error status m) :
    (f.run settings gas observed).status = status := by
  rw [run_eq_of_endsAt (getLast?_trail hp (next?_of_error h)) (.fault h)]

theorem index_stepAt (settings : Settings) (p : Point) :
    (f.stepAt settings p).index = p.index := by
  unfold stepAt step
  split <;> rfl

theorem opcode_stepAt (settings : Settings) (p : Point) :
    (f.stepAt settings p).opcode = f.opcodeAt p.offset := by
  unfold stepAt step
  split <;> rfl

theorem codeOffset_stepAt (settings : Settings) (p : Point) :
    (f.stepAt settings p).codeOffset = p.offset := by
  unfold stepAt step
  split <;> rfl

theorem gasLeft_stepAt (settings : Settings) (p : Point) :
    (f.stepAt settings p).gasLeft = (Machine.stateOf (f.resultAt p)).gas := by
  unfold stepAt
  cases f.resultAt p <;> rfl

/-- No instruction leaves more gas than there was, whether it fails or not. -/
theorem gas_resultAt_le (f : Frame) (p : Point) :
    (Machine.stateOf (f.resultAt p)).gas ≤ p.machine.gas :=
  ((Machine.Composed.of_executeAt f p.offset).frugal p.machine).1

theorem memorySize_stepAt (settings : Settings) (p : Point) :
    (f.stepAt settings p).memorySize = (Machine.stateOf (f.resultAt p)).memory.size := by
  unfold stepAt
  cases f.resultAt p <;> rfl

theorem stackDepth_stepAt (settings : Settings) (p : Point) :
    (f.stepAt settings p).stackDepth = (Machine.stateOf (f.resultAt p)).stack.depth := by
  unfold stepAt
  cases f.resultAt p <;> rfl

/-- What no step of a run executes is at none of its points. -/
theorem instructionAt?_ne_of_steps {i : Instruction}
    (h : ∀ s ∈ (f.run settings gas true).steps, Instruction.ofByte? s.opcode ≠ some i) :
    ∀ p ∈ f.trail (.start settings gas), f.instructionAt? p ≠ some i := by
  intro p hp
  rw [run_steps_observed] at h
  have hstep := h (f.stepAt settings p) (List.mem_map_of_mem hp)
  rwa [opcode_stepAt] at hstep

/-! ## Along two trails -/

/-- The image of a trail under a map of points that goes along with its steps. -/
theorem trail_map {shift : Point → Point} {p : Point}
    (h : ∀ q ∈ f.trail p, g.next? (shift q) = (f.next? q).map shift) :
    g.trail (shift p) = (f.trail p).map shift := by
  induction p using pointInduction f with
  | last p hlast =>
    have hnext : g.next? (shift p) = none := by
      rw [h p (mem_trail_self f p), hlast]
      rfl
    rw [trail_of_none hlast, trail_of_none hnext]
    rfl
  | step p p' hnext ih =>
    have hnext' : g.next? (shift p) = some (shift p') := by
      rw [h p (mem_trail_self f p), hnext]
      rfl
    rw [trail_of_some hnext] at h
    rw [trail_of_some hnext, trail_of_some hnext', List.map_cons,
      ih fun q hq => h q (List.mem_cons_of_mem _ hq)]

/-- Two frames that take the same steps up to a point have the same trail up to there. -/
theorem trail_append {p q : Point} {past rest : List Point} (hp : f.trail p = past ++ q :: rest)
    (h : ∀ x ∈ past, g.next? x = f.next? x) : g.trail p = past ++ g.trail q := by
  induction past generalizing p with
  | nil =>
    obtain ⟨rest', hrest'⟩ := trail_eq_cons f p
    rw [hrest', List.nil_append] at hp
    rw [(List.cons.inj hp).1]
    rfl
  | cons x past ih =>
    cases hnext : f.next? p with
    | none =>
      -- a point that is followed by another one is not the last
      rw [trail_of_none hnext] at hp
      simp at hp
    | some p' =>
      rw [trail_of_some hnext] at hp
      obtain ⟨rfl, hp'⟩ := List.cons.inj hp
      have hnext' : g.next? p = some p' := (h p List.mem_cons_self).trans hnext
      rw [trail_of_some hnext', ih hp' fun y hy => h y (List.mem_cons_of_mem _ hy)]
      rfl

/-- Frames that find the same at a point go on to the same point. -/
theorem next?_congr {p : Point} (opcode : g.opcodeAt p.offset = f.opcodeAt p.offset)
    (result : g.resultAt p = f.resultAt p) : g.next? p = f.next? p := by
  unfold next?
  rw [opcode, result]

theorem stepAt_congr {p : Point} (opcode : g.opcodeAt p.offset = f.opcodeAt p.offset)
    (result : g.resultAt p = f.resultAt p) : g.stepAt settings p = f.stepAt settings p := by
  unfold stepAt step pushed?
  rw [opcode, result]

/-- Two frames whose instructions do the same at the points of a run have that run in common. -/
theorem run_eq_of_resultAt
    (opcode : ∀ p ∈ f.trail (.start settings gas), g.opcodeAt p.offset = f.opcodeAt p.offset)
    (result : ∀ p ∈ f.trail (.start settings gas), g.resultAt p = f.resultAt p) :
    g.run settings gas observed = f.run settings gas observed := by
  refine run_congr (fun p => p ∈ f.trail (.start settings gas)) (mem_trail_self f _) ?_ opcode
    result
  intro p q hp h
  exact mem_trail_of_next? hp h

end EvmDispatch.Frame
