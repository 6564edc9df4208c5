import EvmDispatch.Proofs.Backend.Options
import EvmDispatch.Proofs.Machine.Cause
import EvmDispatch.Proofs.Machine.StepStream

/-!
# The limit of the stack

No step of a run leaves a stack that is higher than the limit of the settings. The limit is met by
the instructions that leave a word and take none, and by no others: these take an operand first, so
that there is room. A copy needs its item, and fails for the want of it before the limit is looked
at (`Engine.stack_limit`).
-/

namespace EvmDispatch

/-! ## Which instructions meet the limit -/

/-- The opcodes that raise a stack of some height: those that ask for a property, those that push,
and those that copy an item that is there. -/
def RaisesStack (height : Nat) (opcode : UInt8) : Prop :=
  opcode ∈ ([0x30, 0x33, 0x36, 0x38, 0x58, 0x59, 0x5a] : List UInt8) ∨
    0x60 ≤ opcode ∧ opcode ≤ 0x7f ∨
    0x80 ≤ opcode ∧ opcode ≤ 0x8f ∧ opcode.toNat - 0x7f ≤ height

namespace Instruction

/-- Where the copies are in the opcode matrix, and what else raises the stack. -/
theorem raises_of_ofByte? {opcode : UInt8} {i : Instruction} (h : ofByte? opcode = some i) :
    let raisesAlways := opcode ∈ ([0x30, 0x33, 0x36, 0x38, 0x58, 0x59, 0x5a] : List UInt8) ∨
      0x60 ≤ opcode ∧ opcode ≤ 0x7f
    (∃ n, i = dup n ∧ ¬ raisesAlways ∧ 0x80 ≤ opcode ∧ opcode ≤ 0x8f ∧
        opcode.toNat - 0x7f = n) ∨
      ¬ (0x80 ≤ opcode ∧ opcode ≤ 0x8f) ∧ (i.raises = true → i.needs = 0) ∧
        (i.raises = true ↔ raisesAlways) := by
  intro raisesAlways
  -- the matrix is read for each opcode; which item a copy needs depends on the opcode itself
  have hmatrix := of_opcode
    (fun opcode i =>
      let raisesAlways := opcode ∈ ([0x30, 0x33, 0x36, 0x38, 0x58, 0x59, 0x5a] : List UInt8) ∨
        0x60 ≤ opcode ∧ opcode ≤ 0x7f
      match i with
      | dup n =>
        decide (¬ raisesAlways ∧ 0x80 ≤ opcode ∧ opcode ≤ 0x8f ∧ opcode.toNat - 0x7f = n)
      | i =>
        decide (¬ (0x80 ≤ opcode ∧ opcode ≤ 0x8f) ∧ (i.raises = true → i.needs = 0) ∧
          (i.raises = true ↔ raisesAlways)))
    (by decide +kernel) h
  cases i with
  | dup n => exact .inl ⟨n, rfl, of_decide_eq_true hmatrix⟩
  | _ => exact .inr (of_decide_eq_true hmatrix)

/-- The opcodes that raise a stack of some height stand for the instructions that put a word on it
without taking one, as long as a copy finds its item. -/
theorem raisesStack_iff {opcode : UInt8} {i : Instruction} (h : ofByte? opcode = some i)
    (height : Nat) : RaisesStack height opcode ↔ i.raises = true ∧ i.needs ≤ height := by
  unfold RaisesStack
  rcases raises_of_ofByte? h with ⟨n, rfl, hothers, hlow, hhigh, rfl⟩ | ⟨hcopy, hneeds, hraises⟩
  · constructor
    · rintro (hquery | hpush | ⟨-, -, hitem⟩)
      · exact absurd (.inl hquery) hothers
      · exact absurd (.inr hpush) hothers
      · exact ⟨rfl, hitem⟩
    · rintro ⟨-, hitem⟩
      exact .inr (.inr ⟨hlow, hhigh, hitem⟩)
  · have free : i.raises = true → i.needs ≤ height := by
      intro raises
      rw [hneeds raises]
      exact Nat.zero_le height
    constructor
    · rintro (hquery | hpush | ⟨hlow, hhigh, -⟩)
      · have raises := hraises.mpr (.inl hquery)
        exact ⟨raises, free raises⟩
      · have raises := hraises.mpr (.inr hpush)
        exact ⟨raises, free raises⟩
      · exact absurd ⟨hlow, hhigh⟩ hcopy
    · rintro ⟨raises, -⟩
      rcases hraises.mp raises with hquery | hpush
      · exact .inl hquery
      · exact .inr (.inl hpush)

end Instruction

namespace Machine

variable {f : Frame} {offset : Nat} {m m' : Machine} {i : Instruction} {c : Control}

/-- No instruction changes the limit of the stack. -/
theorem Effect.limit_eq (h : Effect f offset i m c m') : m'.stack.limit = m.stack.limit := by
  cases h with
  | log mayChange operands dropped_length counted paid grows => rw [grows.stack_eq]; rfl
  | halt operands grows => rw [grows.stack_eq]; rfl
  | revert operands grows => rw [grows.stack_eq]; rfl
  | _ => rfl

/-- An instruction that raises the stack fails if it is full. -/
theorem perform_of_full (raises : i.raises) (pos : i ≠ .dup 0) (enough : i.needs ≤ m.stack.depth)
    (full : m.stack.limit ≤ m.stack.depth) :
    perform f offset i m = .error .stackOverflow m := by
  have hpush : ∀ w, (push w >>= fun _ => pure .next : Action Control) m =
      .error .stackOverflow m := by
    intro w
    simp only [bind, EStateM.bind, push_apply, if_neg (Nat.not_lt.mpr full)]
  cases i with
  | query op => exact hpush _
  | push size => exact hpush _
  | dup n =>
    have hn : n ≠ 0 := fun hn => pos (congrArg Instruction.dup hn)
    have hinside : n - 1 < m.stack.items.length := by
      have enough : n ≤ m.stack.items.length := enough
      omega
    have hdup : m.stack.dup n = .error .stackOverflow := by
      rw [Stack.dup, if_neg hn, List.getElem?_eq_getElem hinside]
      exact if_neg (Nat.not_lt.mpr full)
    simp only [perform, updateStack, bind, EStateM.bind, get_apply, hdup]
    rfl
  | _ => cases raises

/-- An instruction that fails leaves no higher stack. -/
theorem Fault.depth_le {status : Status} (h : Fault f offset m status m') :
    m'.stack.depth ≤ m.stack.depth := by
  cases h with
  | undefined _ => exact Nat.le_refl _
  | unpaid _ _ => exact Nat.le_refl _
  | failed _ _ _ height => exact height

/-- Executing what is at an offset overflows the stack if and only if it raises the stack, its price
can be paid, and the stack is full. -/
theorem overflows_iff (height : m.stack.depth ≤ m.stack.limit) :
    (∃ m', f.executeAt offset m = .error .stackOverflow m') ↔
      f.opcodeAt offset ≠ 0xfe ∧ (Instruction.ofOpcode? f.revision (f.opcodeAt offset)).isSome ∧
        (Instruction.priceOfByte f.revision (f.opcodeAt offset) : Int) ≤ m.gas ∧
        m.stack.depth = m.stack.limit ∧ RaisesStack m.stack.limit (f.opcodeAt offset) := by
  constructor
  · rintro ⟨m', h⟩
    cases fault_of_executeAt height h with
    | @failed i _ _ hi paid cause _ =>
      have hbyte := Instruction.ofByte?_of_executable? hi
      obtain ⟨hopcode, valid⟩ := Instruction.executable?_eq_some_iff.mp hi
      rw [hopcode, Instruction.priceOfByte_of_ofByte? hbyte, Instruction.raisesStack_iff hbyte]
      -- only one of the causes is an overflow
      cases cause with
      | overflow raises enough full =>
        exact ⟨(Instruction.eq_invalid_iff hbyte).not.mp valid, rfl, paid,
          Nat.le_antisymm height full, raises, Nat.le_trans enough height⟩
  · rintro ⟨hvalid, hsome, paid, hfull, hraises⟩
    obtain ⟨i, hopcode⟩ := Option.isSome_iff_exists.mp hsome
    have hbyte := Instruction.ofByte?_of_ofOpcode? hopcode
    have valid : i ≠ .invalid := (Instruction.eq_invalid_iff hbyte).not.mpr hvalid
    have hi := Instruction.executable?_eq_some_iff.mpr ⟨hopcode, valid⟩
    rw [Instruction.priceOfByte_of_ofByte? hbyte] at paid
    obtain ⟨raises, enough⟩ := (Instruction.raisesStack_iff hbyte _).mp hraises
    obtain ⟨pos, -⟩ := Instruction.pos_of_ofByte? hbyte
    rw [executeAt_apply m hi, if_pos paid]
    rw [← hfull] at enough
    exact ⟨_, perform_of_full raises pos enough (Nat.le_of_eq hfull.symm)⟩

end Machine

/-! ## Runs -/

namespace Step

/-- The height of the stack before the `i`-th of the steps of a run. -/
def depthBefore (steps : List Step) : Nat → Nat
  | 0 => 0
  | i + 1 => (steps[i]?.map (·.stackDepth)).getD 0

/-- The gas before the `i`-th of the steps of a run that starts with some gas. -/
def gasBefore (gas : Int) (steps : List Step) : Nat → Int
  | 0 => gas
  | i + 1 => (steps[i]?.map (·.gasLeft)).getD gas

/-- That the steps of a run keep to a limit of the stack. No step leaves a higher stack; and a step
overflows the stack if and only if its opcode is defined, is not the one that fails on purpose and
is paid for, the stack before it is as high as the limit, and the opcode raises a stack of this
height. -/
def KeepTo (limit : Nat) (r : Revision) (gas : Int) (steps : List Step) : Prop :=
  ∀ i s, steps[i]? = some s →
    s.stackDepth ≤ limit ∧
      (s.status = .stackOverflow ↔
        s.opcode ≠ 0xfe ∧ (Instruction.ofOpcode? r s.opcode).isSome ∧
          (Instruction.priceOfByte r s.opcode : Int) ≤ gasBefore gas steps i ∧
          depthBefore steps i = limit ∧ RaisesStack limit s.opcode)

end Step

namespace Frame

variable {f : Frame} {settings : Settings} {gas : Int} {p : Point}

/-- What the steps tell of the state before a step is the state at its point. -/
theorem before_of_trail {i : Nat} (h : (f.trail (.start settings gas))[i]? = some p) :
    Step.depthBefore (f.run settings gas true).steps i = p.machine.stack.depth ∧
      Step.gasBefore gas (f.run settings gas true).steps i = p.machine.gas := by
  rw [run_steps_observed]
  cases i with
  | zero =>
    obtain ⟨rest, hrest⟩ := trail_eq_cons f (.start settings gas)
    rw [hrest] at h
    cases h
    exact ⟨rfl, rfl⟩
  | succ i =>
    obtain ⟨x, hx, hnext⟩ := exists_previous h
    obtain ⟨c, hresult, -⟩ := next?_eq_some hnext
    simp only [Step.depthBefore, Step.gasBefore, List.getElem?_map, hx, Option.map_some,
      Option.getD_some, stackDepth_stepAt, gasLeft_stepAt, hresult]
    exact ⟨rfl, rfl⟩

/-- The limit of a run is that of its settings, at every point. -/
theorem limit_of_mem_trail (hp : p ∈ f.trail (.start settings gas)) :
    p.machine.stack.limit = settings.stackLimit := by
  refine forall_mem_trail (fun p => p.machine.stack.limit = settings.stackLimit) ?_ rfl p hp
  intro p q hlimit hnext
  obtain ⟨c, hresult, -⟩ := next?_eq_some hnext
  obtain ⟨i, -, -, effect⟩ := Machine.effect_of_executeAt hresult
  exact effect.limit_eq.trans hlimit

/-- After an instruction, whether it fails or not, the stack is not too high. -/
theorem Funded.depth_after (hp : Funded gas p) :
    (Machine.stateOf (f.resultAt p)).stack.depth ≤ p.machine.stack.limit := by
  cases hresult : f.resultAt p with
  | ok c m =>
    obtain ⟨i, -, -, effect⟩ := Machine.effect_of_executeAt hresult
    have hdepth := effect.depth_le hp.height
    rw [effect.limit_eq] at hdepth
    exact hdepth
  | error status m =>
    have fault := Machine.fault_of_executeAt hp.height hresult
    exact Nat.le_trans fault.depth_le hp.height

/-- A step tells of an overflow if and only if the instruction failed by one. -/
theorem status_stepAt_eq_overflow_iff :
    (f.stepAt settings p).status = .stackOverflow ↔
      ∃ m, f.resultAt p = .error .stackOverflow m := by
  constructor
  · intro h
    have hsuccess : (f.stepAt settings p).status ≠ .success := by rw [h]; decide
    have hrevert : (f.stepAt settings p).status ≠ .revert := by rw [h]; decide
    obtain ⟨m, hresult⟩ := error_of_stepAt hsuccess hrevert
    rw [h] at hresult
    exact ⟨m, hresult⟩
  · rintro ⟨m, hresult⟩
    rw [stepAt_eq settings hresult]
    rfl

/-- The steps of every run keep to the limit of its settings. -/
theorem run_keepTo (f : Frame) (settings : Settings) (gas : Int) :
    Step.KeepTo settings.stackLimit f.revision gas (f.run settings gas true).steps := by
  intro i s hs
  rw [run_steps_observed, List.getElem?_map, Option.map_eq_some_iff] at hs
  obtain ⟨p, hp, rfl⟩ := hs
  have hmem := List.mem_of_getElem? hp
  have hfunded := funded_of_mem_trail hmem
  have hlimit := limit_of_mem_trail hmem
  obtain ⟨hdepth, hgas⟩ := before_of_trail hp
  rw [stackDepth_stepAt, status_stepAt_eq_overflow_iff, opcode_stepAt, hdepth, hgas, ← hlimit]
  exact ⟨hfunded.depth_after, Machine.overflows_iff hfunded.height⟩

end Frame

/-- The fast backend keeps to the limit, whether it takes the message or not. -/
theorem FastPath.execute_keepTo (e : Engine) (r : Revision) (message : Message) :
    Step.KeepTo e.settings.stackLimit r message.gas (execute e r message true).1.steps := by
  unfold execute
  split
  · exact Frame.run_keepTo _ e.settings message.gas
  · intro i s hs
    cases hs

/-- The limit of the stack. Whatever options a new engine of one of the two backends is configured
with, its limit is from 1 to 1024 and is that of the last option that asks for one, if there is one;
an option is accepted only if it asks for a limit in this range or says whether steps tell what has
been pushed, and one that is not accepted changes nothing. Whatever message is executed then, under
whatever revision, the steps keep to the limit. -/
theorem Engine.stack_limit :
    (∀ options : List VmOption,
      let e := configured options
      Interpreter.backend.configure Interpreter.backend.start options = e ∧
        FastPath.backend.configure FastPath.backend.start options = e ∧
        1 ≤ e.settings.stackLimit ∧ e.settings.stackLimit ≤ 1024 ∧
        VmOption.LastLimit options e.settings.stackLimit) ∧
      (∀ (e : Engine) (o : VmOption),
        let (answer, e') := e.set o.name o.value
        (answer = .accepted ↔ (∃ limit, o.LimitsStack limit) ∨ ∃ told, o.TellsPushed told) ∧
          (answer ≠ .accepted → e' = e)) ∧
      ∀ (e : Engine) (r : Revision) (message : Message),
        let limit := e.settings.stackLimit
        Step.KeepTo limit r message.gas (Interpreter.execute e r message true).1.steps ∧
          Step.KeepTo limit r message.gas (FastPath.execute e r message true).1.steps := by
  refine ⟨?_, set_answer, ?_⟩
  · intro options e
    have hlast := lastLimit_configured options
    exact ⟨rfl, rfl, hlast.bounds.1, hlast.bounds.2, hlast⟩
  · intro e r message limit
    exact ⟨Frame.run_keepTo _ e.settings message.gas, FastPath.execute_keepTo e r message⟩

end EvmDispatch
