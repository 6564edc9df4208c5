import EvmDispatch.Machine.Run

/-!
# The points of a run

A run goes from point to point: an offset, the machine there, and the number that the step gets.
`Frame.trail` lists the points of a run in their order. Whatever an observer sees is the image of
the trail (`runFrom_steps`), and how a run ends depends on its last point only (`runFrom_ends`), so
that a law about runs is an induction on the trail with `pointInduction`.
-/

namespace EvmDispatch

/-- A place in a run. -/
structure Point where
  /-- The number of steps before it, modulo `2 ^ 32`. -/
  index : UInt32
  offset : Nat
  machine : Machine

/-- Where a run starts. -/
def Point.start (settings : Settings) (gas : Int) : Point where
  index := 0
  offset := 0
  machine := { stack := { limit := settings.stackLimit }, gas }

namespace Frame

/-- What the instruction at a point comes to. -/
def resultAt (f : Frame) (p : Point) : EStateM.Result Status Machine Control :=
  f.executeAt p.offset p.machine

/-- The step of the instruction at a point. -/
def stepAt (f : Frame) (settings : Settings) (p : Point) : Step :=
  f.step settings p.index p.offset (f.resultAt p)

/-- The point after another one, if the execution goes on. -/
def next? (f : Frame) (p : Point) : Option Point :=
  match f.resultAt p with
  | .ok .next m =>
    some ⟨p.index + 1, p.offset + 1 + Instruction.immediateSize (f.opcodeAt p.offset), m⟩
  | .ok (.jump target) m => some ⟨p.index + 1, target, m⟩
  | _ => none

variable {f : Frame} {settings : Settings} {observed : Bool}

/-- Where the execution goes on, and in which state. -/
theorem next?_eq_some {p q : Point} (h : f.next? p = some q) :
    ∃ c, f.resultAt p = .ok c q.machine ∧ q.index = p.index + 1 ∧
      (c = .next ∧
          q.offset = p.offset + 1 + Instruction.immediateSize (f.opcodeAt p.offset) ∨
        c = .jump q.offset) := by
  unfold next? at h
  split at h
  · rename_i m hresult
    cases h
    exact ⟨_, hresult, rfl, .inl ⟨rfl, rfl⟩⟩
  · rename_i target m hresult
    cases h
    exact ⟨_, hresult, rfl, .inr rfl⟩
  · cases h

/-- A run ends because it is asked to, or by a failure. -/
theorem next?_eq_none {p : Point} (h : f.next? p = none) :
    (∃ reverts start size m, f.resultAt p = .ok (.finish reverts start size) m) ∨
      ∃ status m, f.resultAt p = .error status m := by
  unfold next? at h
  cases hresult : f.resultAt p with
  | error status m => exact .inr ⟨status, m, rfl⟩
  | ok c m =>
    rw [hresult] at h
    cases c with
    | next => cases h
    | jump target => cases h
    | finish reverts start size => exact .inl ⟨reverts, start, size, m, rfl⟩

/-- Every point has less gas than the one before it, but no debt. -/
theorem next?_gas_lt {p q : Point} (h : f.next? p = some q) :
    q.machine.gas < p.machine.gas ∧ 0 ≤ q.machine.gas := by
  obtain ⟨c, hresult, -, hc⟩ := next?_eq_some h
  refine Machine.executeAt_gas_lt hresult ?_
  rintro reverts start size rfl
  rcases hc with ⟨hc, -⟩ | hc <;> cases hc

/-- The points of a run from one on. -/
def trail (f : Frame) (p : Point) : List Point :=
  match _h : f.next? p with
  | some q => p :: f.trail q
  | none => [p]
termination_by p.machine.gas.toNat
decreasing_by
  have := next?_gas_lt _h
  omega

theorem trail_of_some {p q : Point} (h : f.next? p = some q) : f.trail p = p :: f.trail q := by
  rw [trail]
  split
  · rename_i q' h'
    rw [h] at h'
    cases h'
    rfl
  · rename_i h'
    rw [h] at h'
    cases h'

theorem trail_of_none {p : Point} (h : f.next? p = none) : f.trail p = [p] := by
  rw [trail]
  split
  · rename_i q' h'
    rw [h] at h'
    cases h'
  · rfl

/-- The points up to one, and this one. -/
theorem take_succ_trail {p q : Point} {i : Nat} (h : (f.trail p)[i]? = some q) :
    (f.trail p).take (i + 1) = (f.trail p).take i ++ [q] := by
  rw [List.take_add_one, h]
  rfl

/-- What holds of the last point of every run, and of a point if it holds of the next one, holds of
every point. -/
@[elab_as_elim]
theorem pointInduction {motive : Point → Prop} (f : Frame)
    (last : ∀ p, f.next? p = none → motive p)
    (step : ∀ p q, f.next? p = some q → motive q → motive p) (p : Point) : motive p := by
  cases h : f.next? p with
  | none => exact last p h
  | some q => exact step p q h (pointInduction f last step q)
termination_by p.machine.gas.toNat
decreasing_by
  have := next?_gas_lt h
  omega

theorem trail_eq_cons (f : Frame) (p : Point) : ∃ rest, f.trail p = p :: rest := by
  cases h : f.next? p with
  | none => exact ⟨[], trail_of_none h⟩
  | some q => exact ⟨f.trail q, trail_of_some h⟩

/-- What holds of a point and is kept from point to point holds along the whole trail. -/
theorem forall_mem_trail (inv : Point → Prop)
    (step : ∀ p q, inv p → f.next? p = some q → inv q) {p : Point} (start : inv p) :
    ∀ q ∈ f.trail p, inv q := by
  induction p using pointInduction f with
  | last p h =>
    rw [trail_of_none h]
    simpa using start
  | step p q h ih =>
    rw [trail_of_some h]
    intro x hx
    rcases List.mem_cons.mp hx with rfl | hx
    · exact start
    · exact ih (step p q start h) x hx

/-- A law about a point and the points before it: it holds at the start, where there are none, and
an instruction that does not fail keeps it, with its own point added to those before. -/
theorem history_of_trail (inv : List Point → Machine → Prop) {p : Point}
    (start : inv [] p.machine)
    (step : ∀ past q c m, inv past q.machine → f.resultAt q = .ok c m → inv (past ++ [q]) m)
    {i : Nat} {q : Point} (h : (f.trail p)[i]? = some q) : inv ((f.trail p).take i) q.machine := by
  suffices hpast : ∀ past, inv past p.machine → inv (past ++ (f.trail p).take i) q.machine from
    hpast [] start
  clear start
  induction p using pointInduction f generalizing i with
  | last p hlast =>
    intro past hp
    rw [trail_of_none hlast] at h ⊢
    cases i with
    | zero =>
      obtain rfl : p = q := by simpa using h
      simpa using hp
    | succ i => simp at h
  | step p p' hnext ih =>
    intro past hp
    rw [trail_of_some hnext] at h ⊢
    cases i with
    | zero =>
      obtain rfl : p = q := by simpa using h
      simpa using hp
    | succ i =>
      obtain ⟨c, hresult, -⟩ := next?_eq_some hnext
      have hrest := ih h (past ++ [p]) (step past p c p'.machine hp hresult)
      rwa [List.append_assoc, List.singleton_append] at hrest

/-! ## What a run makes of its trail -/

theorem runFrom_of_some {steps : Array Step} {p q : Point} (h : f.next? p = some q) :
    f.runFrom settings observed steps p.index p.offset p.machine =
      f.runFrom settings observed (f.record settings observed steps p.index p.offset (f.resultAt p))
        q.index q.offset q.machine := by
  obtain ⟨c, hresult, hindex, hc⟩ := next?_eq_some h
  rw [hindex, hresult]
  have hexecute : f.executeAt p.offset p.machine = .ok c q.machine := hresult
  rw [runFrom]
  rcases hc with ⟨rfl, hoffset⟩ | rfl
  · rw [hoffset]
    split <;> simp_all
  · split <;> simp_all

theorem runFrom_of_finish {steps : Array Step} {p : Point} {reverts : Bool} {start size : Nat}
    {m : Machine} (h : f.resultAt p = .ok (.finish reverts start size) m) :
    f.runFrom settings observed steps p.index p.offset p.machine =
      { status := (Control.finish reverts start size).status
        gasLeft := m.gas
        output := m.memory.slice start size
        steps :=
          (f.record settings observed steps p.index p.offset (f.resultAt p)).toList } := by
  have hexecute : f.executeAt p.offset p.machine = .ok (.finish reverts start size) m := h
  rw [h, runFrom]
  split <;> simp_all

theorem runFrom_of_error {steps : Array Step} {p : Point} {status : Status} {m : Machine}
    (h : f.resultAt p = .error status m) :
    f.runFrom settings observed steps p.index p.offset p.machine =
      { status
        steps :=
          (f.record settings observed steps p.index p.offset (f.resultAt p)).toList } := by
  have hexecute : f.executeAt p.offset p.machine = .error status m := h
  rw [h, runFrom]
  split <;> simp_all

/-- The observer of a run sees a step for each point of its trail, and nothing else. -/
theorem runFrom_steps (steps : Array Step) (p : Point) :
    (f.runFrom settings observed steps p.index p.offset p.machine).steps =
      steps.toList ++ if observed then (f.trail p).map (f.stepAt settings) else [] := by
  have hrecord : ∀ (steps : Array Step) (p : Point),
      (f.record settings observed steps p.index p.offset (f.resultAt p)).toList =
        steps.toList ++ if observed then [f.stepAt settings p] else [] := by
    intro steps p
    unfold record
    split
    · simp [stepAt]
    · simp
  -- along the trail, for whatever steps have been collected before
  induction p using pointInduction f generalizing steps with
  | last p h =>
    rw [trail_of_none h]
    rcases next?_eq_none h with ⟨reverts, start, size, m, hresult⟩ | ⟨status, m, hresult⟩
    · rw [runFrom_of_finish hresult]
      exact hrecord steps p
    · rw [runFrom_of_error hresult]
      exact hrecord steps p
  | step p q h ih =>
    rw [runFrom_of_some h, ih, hrecord, trail_of_some h]
    cases observed <;> simp

/-- How a run ends whose last point is `p`: by which status, with which gas left and which output. A
failure leaves neither. -/
inductive EndsAt (f : Frame) (p : Point) : Status → Int → Bytes → Prop where
  | finish {reverts : Bool} {start size : Nat} {m : Machine}
    (result : f.resultAt p = .ok (.finish reverts start size) m) :
    EndsAt f p (if reverts then .revert else .success) m.gas (m.memory.slice start size)
  | fault {status : Status} {m : Machine} (result : f.resultAt p = .error status m) :
    EndsAt f p status 0 []

/-- A run ends by completing, by asking to be undone, or by a fault. -/
theorem EndsAt.status_cases {p : Point} {status : Status} {gasLeft : Int} {output : Bytes}
    (h : f.EndsAt p status gasLeft output) :
    status = .success ∨ status = .revert ∨ status.isFault := by
  cases h with
  | @finish reverts start size m result =>
    cases reverts with
    | true => exact .inr (.inl rfl)
    | false => exact .inl rfl
  | fault result => exact .inr (.inr ((Machine.Composed.of_executeAt f _).isFault_of_error result))

/-- A run ends in one way only. -/
theorem EndsAt.unique {p : Point} {status status' : Status} {gasLeft gasLeft' : Int}
    {output output' : Bytes} (h : f.EndsAt p status gasLeft output)
    (h' : f.EndsAt p status' gasLeft' output') :
    status' = status ∧ gasLeft' = gasLeft ∧ output' = output := by
  cases h with
  | finish result =>
    cases h' with
    | finish result' =>
      cases result.symm.trans result'
      exact ⟨rfl, rfl, rfl⟩
    | fault result' => cases result.symm.trans result'
  | fault result =>
    cases h' with
    | finish result' => cases result.symm.trans result'
    | fault result' =>
      cases result.symm.trans result'
      exact ⟨rfl, rfl, rfl⟩

/-- A run ends as its last point says. -/
theorem runFrom_ends (steps : Array Step) (p : Point) :
    ∃ last, (f.trail p).getLast? = some last ∧
      f.EndsAt last (f.runFrom settings observed steps p.index p.offset p.machine).status
        (f.runFrom settings observed steps p.index p.offset p.machine).gasLeft
        (f.runFrom settings observed steps p.index p.offset p.machine).output := by
  induction p using pointInduction f generalizing steps with
  | last p h =>
    refine ⟨p, by rw [trail_of_none h]; rfl, ?_⟩
    rcases next?_eq_none h with ⟨reverts, start, size, m, hresult⟩ | ⟨status, m, hresult⟩
    · rw [runFrom_of_finish hresult]
      exact .finish hresult
    · rw [runFrom_of_error hresult]
      exact .fault hresult
  | step p q h ih =>
    obtain ⟨last, hlast, hends⟩ :=
      ih (f.record settings observed steps p.index p.offset (f.resultAt p))
    refine ⟨last, ?_, by rw [runFrom_of_some h]; exact hends⟩
    obtain ⟨rest, hrest⟩ := trail_eq_cons f q
    rw [trail_of_some h, hrest, List.getLast?_cons_cons, ← hrest]
    exact hlast

theorem stepAt_eq (settings : Settings) {p : Point}
    {result : EStateM.Result Status Machine Control} (h : f.resultAt p = result) :
    f.stepAt settings p = f.step settings p.index p.offset result := by
  rw [stepAt, h]

theorem stepAt_of_ok (settings : Settings) {p : Point} {c : Control} {m : Machine}
    (h : f.resultAt p = .ok c m) :
    (f.stepAt settings p).gasLeft = m.gas ∧ (f.stepAt settings p).memorySize = m.memory.size := by
  rw [stepAt_eq settings h]
  exact ⟨rfl, rfl⟩

/-- A failure is neither a success nor a request to undo. -/
theorem not_passed_of_error {p : Point} {status : Status} {m : Machine}
    (h : f.resultAt p = .error status m) : ¬(status = .success ∨ status = .revert) := by
  have hfault : status.isFault := (Machine.Composed.of_executeAt f p.offset).isFault_of_error h
  rintro (rfl | rfl) <;> cases hfault

/-- Only an instruction that does not fail is seen as a success or as a request to undo. -/
theorem ok_of_stepAt {settings : Settings} {p : Point}
    (h : (f.stepAt settings p).status = .success ∨ (f.stepAt settings p).status = .revert) :
    ∃ c m, f.resultAt p = .ok c m := by
  cases hresult : f.resultAt p with
  | ok c m => exact ⟨c, m, rfl⟩
  | error status m =>
    have hstatus : (f.stepAt settings p).status = status := by
      rw [stepAt_eq settings hresult]
      rfl
    rw [hstatus] at h
    exact absurd h (not_passed_of_error hresult)

/-- A step that is seen as a failure is one. -/
theorem error_of_stepAt {settings : Settings} {p : Point}
    (hsuccess : (f.stepAt settings p).status ≠ .success)
    (hrevert : (f.stepAt settings p).status ≠ .revert) :
    ∃ m, f.resultAt p = .error (f.stepAt settings p).status m := by
  cases hresult : f.resultAt p with
  | ok c m =>
    rw [stepAt_eq settings hresult] at hsuccess hrevert
    cases c with
    | finish reverts start size => cases reverts <;> contradiction
    | _ => contradiction
  | error status m =>
    rw [stepAt_eq settings hresult]
    exact ⟨m, rfl⟩

/-! ## Whole runs -/

/-- An observed run tells a step for each point of its trail. -/
theorem run_steps (f : Frame) (settings : Settings) (gas : Int) (observed : Bool) :
    (f.run settings gas observed).steps =
      if observed then (f.trail (.start settings gas)).map (f.stepAt settings) else [] :=
  runFrom_steps #[] (.start settings gas)

theorem run_steps_observed (f : Frame) (settings : Settings) (gas : Int) :
    (f.run settings gas true).steps = (f.trail (.start settings gas)).map (f.stepAt settings) := by
  rw [run_steps]
  rfl

/-- A step that did not fail is that of an instruction on the trail that did not. -/
theorem exists_point_of_step {gas : Int} {i : Nat} {s : Step}
    (h : (f.run settings gas true).steps[i]? = some s)
    (hs : s.status = .success ∨ s.status = .revert) :
    ∃ p c m, (f.trail (.start settings gas))[i]? = some p ∧ f.resultAt p = .ok c m ∧
      f.stepAt settings p = s := by
  rw [run_steps_observed, List.getElem?_map, Option.map_eq_some_iff] at h
  obtain ⟨p, hp, rfl⟩ := h
  obtain ⟨c, m, hresult⟩ := ok_of_stepAt hs
  exact ⟨p, c, m, hp, hresult, rfl⟩

/-- Every run ends at the last point of its trail. -/
theorem run_ends (f : Frame) (settings : Settings) (gas : Int) (observed : Bool) :
    ∃ last, (f.trail (.start settings gas)).getLast? = some last ∧
      f.EndsAt last (f.run settings gas observed).status (f.run settings gas observed).gasLeft
        (f.run settings gas observed).output :=
  runFrom_ends #[] (.start settings gas)

/-- How a run ends does not depend on whether it is observed. -/
theorem run_unobserved (f : Frame) (settings : Settings) (gas : Int) (observed observed' : Bool) :
    (f.run settings gas observed').status = (f.run settings gas observed).status ∧
      (f.run settings gas observed').gasLeft = (f.run settings gas observed).gasLeft ∧
      (f.run settings gas observed').output = (f.run settings gas observed).output := by
  obtain ⟨last, hlast, hends⟩ := run_ends f settings gas observed
  obtain ⟨last', hlast', hends'⟩ := run_ends f settings gas observed'
  obtain rfl := Option.some.inj (hlast.symm.trans hlast')
  exact hends.unique hends'

/-- The machine declines nothing. -/
theorem run_status_ne_rejected (f : Frame) (settings : Settings) (gas : Int) (observed : Bool) :
    (f.run settings gas observed).status ≠ .rejected := by
  obtain ⟨last, -, hends⟩ := run_ends f settings gas observed
  intro hstatus
  rw [hstatus] at hends
  rcases hends.status_cases with h | h | h <;> cases h

/-- Two frames whose instructions do the same along the trail of one of them have the same runs. -/
theorem run_congr {f g : Frame} {gas : Int} (inv : Point → Prop)
    (start : inv (.start settings gas)) (step : ∀ p q, inv p → f.next? p = some q → inv q)
    (opcode : ∀ p, inv p → g.opcodeAt p.offset = f.opcodeAt p.offset)
    (result : ∀ p, inv p → g.resultAt p = f.resultAt p) :
    g.run settings gas observed = f.run settings gas observed := by
  have hrecord : ∀ (steps : Array Step) (p : Point), inv p →
      g.record settings observed steps p.index p.offset (g.resultAt p) =
        f.record settings observed steps p.index p.offset (f.resultAt p) := by
    intro steps p hp
    unfold record
    rw [result p hp]
    congr 2
    unfold Frame.step pushed?
    rw [opcode p hp]
  suffices h : ∀ (p : Point) (steps : Array Step), inv p →
      g.runFrom settings observed steps p.index p.offset p.machine =
        f.runFrom settings observed steps p.index p.offset p.machine from
    h (.start settings gas) #[] start
  -- both runs are at the same point, and `inv` of it lets them take the same step
  intro p
  induction p using pointInduction f with
  | last p h =>
    intro steps hp
    rcases next?_eq_none h with ⟨reverts, start, size, m, hresult⟩ | ⟨status, m, hresult⟩
    · have hresult' := (result p hp).trans hresult
      rw [runFrom_of_finish hresult, runFrom_of_finish hresult', hrecord steps p hp]
    · have hresult' := (result p hp).trans hresult
      rw [runFrom_of_error hresult, runFrom_of_error hresult', hrecord steps p hp]
  | step p q h ih =>
    intro steps hp
    have hnext : g.next? p = some q := by
      unfold next?
      rw [result p hp, opcode p hp]
      exact h
    rw [runFrom_of_some h, runFrom_of_some hnext, hrecord steps p hp]
    exact ih _ (step p q hp h)

end Frame

end EvmDispatch
