import EvmDispatch.Proofs.Machine.Effect
import EvmDispatch.Proofs.Machine.Immediate
import EvmDispatch.Proofs.Machine.Trail
import EvmDispatch.Proofs.Word.Arithmetic
import EvmDispatch.Proofs.Word.Bits

/-!
# The stack that the steps tell

The steps of a run tell the words that were put on the stack, and the opcodes tell how many were
taken off, so that a reader of the steps can follow the stack without a machine: `replay?` does.
Such a reader comes to the stack that the machine has, and can check each word against the operands
that the replay has at its top. What the words have to be is `Frame.Produces`, which speaks of their
values only.
-/

namespace EvmDispatch

/-! ## What instructions compute -/

/-- The values of instructions with two operands, the topmost first. -/
def BinaryInstruction.onValues : BinaryInstruction → Nat → Nat → Nat
  | add, a, b => (a + b) % 2 ^ 256
  | mul, a, b => a * b % 2 ^ 256
  | sub, a, b => (2 ^ 256 - b + a) % 2 ^ 256
  | lt, a, b => if a < b then 1 else 0
  | gt, a, b => if b < a then 1 else 0
  | eq, a, b => if a = b then 1 else 0
  | and, a, b => a &&& b
  | or, a, b => a ||| b
  | xor, a, b => a ^^^ b
  | shl, shift, a => a * 2 ^ shift % 2 ^ 256
  | shr, shift, a => a / 2 ^ shift

/-- The values of instructions with one operand; the complement changes each of the 256 bits. -/
def UnaryInstruction.onValue : UnaryInstruction → Nat → Nat
  | isZero, a => if a = 0 then 1 else 0
  | not, a => a ^^^ (2 ^ 256 - 1)

/-- An instruction with two operands computes what their values say. -/
theorem BinaryInstruction.toNat_eval (op : BinaryInstruction) (a b : Word) :
    (op.eval a b).toNat = op.onValues a.toNat b.toNat := by
  cases op with
  | add => exact a.toNat_add b
  | mul => exact a.toNat_mul b
  | sub => exact a.toNat_sub b
  | lt =>
    rw [eval, Word.toNat_ofBool, Word.compare_lt_eq, onValues]
    simp only [decide_eq_true_eq]
  | gt =>
    rw [eval, Word.toNat_ofBool, Word.compare_gt_eq, onValues]
    simp only [decide_eq_true_eq]
  | eq =>
    rw [eval, Word.toNat_ofBool, Word.beq_eq, onValues]
    simp only [decide_eq_true_eq]
  | and => exact a.toNat_and b
  | or => exact a.toNat_or b
  | xor => exact a.toNat_xor b
  | shl => exact b.toNat_shiftLeft a
  | shr => exact b.toNat_shiftRight a

theorem UnaryInstruction.toNat_eval (op : UnaryInstruction) (a : Word) :
    (op.eval a).toNat = op.onValue a.toNat := by
  cases op with
  | isZero =>
    rw [eval, Word.toNat_ofBool, Word.isZero_eq, onValue]
    simp only [decide_eq_true_eq]
  | not => exact a.toNat_not

/-! ## Following the stack -/

/-- The number of items that an instruction takes off the stack. Copies and exchanges take none. -/
def Instruction.takes : Instruction → Nat
  | binary _ => 2
  | unary _ => 1
  | callDataLoad => 1
  | pop => 1
  | memoryLoad => 1
  | memoryStore => 2
  | memoryStoreByte => 2
  | storageLoad => 1
  | storageStore => 2
  | jump => 1
  | jumpIf => 2
  | log topics => topics + 2
  | halt => 2
  | revert => 2
  | _ => 0

/-- The items with the topmost one and the one `n` below it exchanged, if there are so many. -/
def exchangeTop? (n : Nat) (items : List Word) : Option (List Word) :=
  match items[0]?, items[n]? with
  | some top, some deep => some ((items.set 0 deep).set n top)
  | _, _ => none

namespace Step

/-- Whether the instruction did not fail: it completed, or asked for the execution to be undone. -/
def Passed (s : Step) : Prop := s.status = .success ∨ s.status = .revert

instance : DecidablePred Passed := fun s =>
  inferInstanceAs (Decidable (s.status = .success ∨ s.status = .revert))

/-- The items after a step, from the items before it. There are none if too few are there to be
taken. -/
def follow? (items : List Word) (s : Step) : Option (List Word) :=
  match Instruction.ofByte? s.opcode with
  | some (.swap n) => exchangeTop? n items
  | some i => if i.takes ≤ items.length then some (s.pushed.toList ++ items.drop i.takes) else none
  | none => none

/-- The items that those of some steps lead to that did not fail. -/
def replay? (steps : List Step) : Option (List Word) :=
  (steps.filter (·.Passed)).foldlM follow? []

end Step

/-- What an instruction that asks for a property finds, as far as it is known to a reader of the
step. -/
def QueryInstruction.told (f : Frame) (s : Step) : QueryInstruction → Word
  | address => .ofAddress f.callee
  | caller => .ofAddress f.caller
  | callDataSize => .ofNat f.input.length
  | codeSize => .ofNat f.code.size
  | pc => .ofNat s.codeOffset
  | memorySize => .ofNat s.memorySize
  | gas => .ofNat s.gasLeft.toNat

/-- The words that the instruction of a step may put on a stack with some items. What is read from
memory and storage is left open here. -/
inductive Frame.Produces (f : Frame) (s : Step) : List Word → Instruction → Word → Prop where
  | binary {op : BinaryInstruction} {a b w : Word} {rest : List Word}
    (value : w.toNat = op.onValues a.toNat b.toNat) : Produces f s (a :: b :: rest) (.binary op) w
  | unary {op : UnaryInstruction} {a w : Word} {rest : List Word}
    (value : w.toNat = op.onValue a.toNat) : Produces f s (a :: rest) (.unary op) w
  | query {op : QueryInstruction} {items : List Word} :
    Produces f s items (.query op) (op.told f s)
  | callDataLoad {start : Word} {rest : List Word} :
    Produces f s (start :: rest) .callDataLoad (.loadPadded f.input start)
  | memoryLoad {start w : Word} {rest : List Word} : Produces f s (start :: rest) .memoryLoad w
  | storageLoad {key w : Word} {rest : List Word} : Produces f s (key :: rest) .storageLoad w
  | push {size : Nat} {w : Word} {items : List Word}
    (value : w.toNat =
      Word.natOfBytes (readPadded f.code.toList (s.codeOffset + 1) size)) :
    Produces f s items (.push size) w
  | dup {n : Nat} {w : Word} {items : List Word} (pos : n ≠ 0) (item : items[n - 1]? = some w) :
    Produces f s items (.dup n) w

/-- That the steps of a run can be replayed, and bear out the words that they tell. At each step
that did not fail, the replay of the steps before it and the replay with it succeed; the latter has
the height that the step tells; the step tells a word if and only if its instruction produces one;
and the word is one that it produces from the items of the replay. -/
def Frame.CertifiedBy (f : Frame) (steps : List Step) : Prop :=
  (∃ items, Step.replay? steps = some items) ∧
    ∀ i s, steps[i]? = some s → s.Passed →
      ∃ instruction before after, Instruction.ofByte? s.opcode = some instruction ∧
        Step.replay? (steps.take i) = some before ∧
        Step.replay? (steps.take (i + 1)) = some after ∧
        after.length = s.stackDepth ∧
        (s.pushed.isSome ↔ ∃ w, f.Produces s before instruction w) ∧
        ∀ w, s.pushed = some w → f.Produces s before instruction w

/-! ## One instruction -/

/-- A reader of the steps exchanges what the machine does. -/
theorem exchangeTop?_of_exchange? {n : Nat} {items items' : List Word}
    (h : Stack.exchange? n items = some items') : exchangeTop? n items = some items' := by
  cases items with
  | nil => cases h
  | cons w rest =>
    rw [Stack.exchange?] at h
    split at h
    · cases h
    · rename_i pos
      obtain ⟨k, rfl⟩ := Nat.exists_eq_succ_of_ne_zero pos
      obtain ⟨deep, hdeep, rfl⟩ := Option.map_eq_some_iff.mp h
      have hdeep : rest[k]? = some deep := hdeep
      simp [exchangeTop?, hdeep]

namespace Machine

variable {f : Frame} {offset : Nat} {i : Instruction} {m m' : Machine} {c : Control}

/-- But for exchanges, an instruction takes what it takes and leaves at most one word. -/
theorem Effect.items_eq (h : Effect f offset i m c m') (hswap : ∀ n, i ≠ .swap n) :
    i.takes ≤ m.stack.items.length ∧
      m'.stack.items = (if i.pushesValue then m'.stack.top? else none).toList ++
        m.stack.items.drop i.takes := by
  cases h with
  | swap exchanged => exact absurd rfl (hswap _)
  | log mayChange operands dropped_length counted paid grows =>
    rw [grows.stack_eq]
    simp [Instruction.takes, Instruction.pushesValue, operands, dropped_length]
  | halt operands grows =>
    rw [grows.stack_eq]
    simp [Instruction.takes, Instruction.pushesValue, operands]
  | revert operands grows =>
    rw [grows.stack_eq]
    simp [Instruction.takes, Instruction.pushesValue, operands]
  | _ => simp [Instruction.takes, Instruction.pushesValue, Stack.top?, *]

/-- The word that an instruction leaves is one that it produces. -/
theorem Effect.produces {s : Step} (h : Effect f offset i m c m')
    (hbyte : Instruction.ofByte? s.opcode = some i) (hoffset : s.codeOffset = offset)
    (hmemory : s.memorySize = m'.memory.size) (hgas : s.gasLeft = m'.gas)
    (hpushes : i.pushesValue = true) :
    ∃ w, m'.stack.top? = some w ∧ f.Produces s m.stack.items i w := by
  cases h with
  | @binary _ op a b rest operands room =>
    refine ⟨op.eval a b, rfl, ?_⟩
    rw [operands]
    exact .binary (op.toNat_eval a b)
  | @unary _ op a rest operands room =>
    refine ⟨op.eval a, rfl, ?_⟩
    rw [operands]
    exact .unary (op.toNat_eval a)
  | @query _ op room =>
    have htold : op.told f s = op.eval f offset m := by
      cases op with
      | pc => exact congrArg Word.ofNat hoffset
      | memorySize => exact congrArg Word.ofNat hmemory
      | gas => exact congrArg (fun gas => Word.ofNat gas.toNat) hgas
      | _ => rfl
    refine ⟨op.eval f offset m, rfl, ?_⟩
    rw [← htold]
    exact .query
  | callDataLoad operands room =>
    refine ⟨_, rfl, ?_⟩
    rw [operands]
    exact .callDataLoad
  | memoryLoad operands can room =>
    refine ⟨_, rfl, ?_⟩
    rw [operands]
    exact .memoryLoad
  | storageLoad operands room =>
    refine ⟨_, rfl, ?_⟩
    rw [operands]
    exact .storageLoad
  | @push _ size room =>
    refine ⟨f.immediateAt offset size, rfl, .push ?_⟩
    rw [hoffset]
    exact f.toNat_immediateAt offset (Instruction.size_le_of_ofByte? hbyte)
  | dup pos operand room => exact ⟨_, rfl, .dup pos operand⟩
  | _ => cases hpushes

end Machine

namespace Frame

variable {f : Frame} {settings : Settings}

/-- Only an instruction that puts a word on the stack produces one. -/
theorem Produces.pushesValue {s : Step} {items : List Word} {i : Instruction} {w : Word}
    (h : f.Produces s items i w) : i.pushesValue = true := by
  cases h <;> rfl

theorem passed_stepAt {p : Point} {c : Control} {m : Machine} (h : f.resultAt p = .ok c m) :
    (f.stepAt settings p).Passed := by
  rw [stepAt_eq settings h]
  cases c with
  | next => exact .inl rfl
  | jump target => exact .inl rfl
  | finish reverts start size =>
    cases reverts with
    | true => exact .inr rfl
    | false => exact .inl rfl

/-- What the step of an instruction tells that did not fail. -/
theorem pushed_stepAt (traced : settings.tracePushed = true) {p : Point} {c : Control} {m : Machine}
    {i : Instruction} (h : f.resultAt p = .ok c m)
    (hi : Instruction.ofByte? (f.opcodeAt p.offset) = some i) :
    (f.stepAt settings p).pushed = if i.pushesValue then m.stack.top? else none := by
  rw [stepAt_eq settings h]
  simp [step, pushed?, hi, traced]

/-- Following a step that did not fail leads to the items that the machine has after it. -/
theorem follow?_stepAt (traced : settings.tracePushed = true) {p : Point} {c : Control}
    {m : Machine} (h : f.resultAt p = .ok c m) :
    Step.follow? p.machine.stack.items (f.stepAt settings p) = some m.stack.items := by
  obtain ⟨i, hbyte, -, effect⟩ := Machine.effect_of_executeAt h
  have hopcode : (f.stepAt settings p).opcode = f.opcodeAt p.offset := by
    rw [stepAt_eq settings h]
    rfl
  have hpushed := pushed_stepAt traced h hbyte
  by_cases hswap : ∃ n, i = .swap n
  · obtain ⟨n, rfl⟩ := hswap
    rw [Step.follow?, hopcode, hbyte]
    cases effect with
    | swap exchanged => exact exchangeTop?_of_exchange? exchanged
  · have hswap : ∀ n, i ≠ .swap n := fun n hn => hswap ⟨n, hn⟩
    obtain ⟨henough, hitems⟩ := effect.items_eq hswap
    have hfollow : Step.follow? p.machine.stack.items (f.stepAt settings p) =
        if i.takes ≤ p.machine.stack.items.length then
          some ((f.stepAt settings p).pushed.toList ++ p.machine.stack.items.drop i.takes)
        else none := by
      rw [Step.follow?, hopcode, hbyte]
      cases i with
      | swap n => exact absurd rfl (hswap n)
      | _ => rfl
    rw [hfollow, if_pos henough, hpushed, hitems]

/-- A step that did not fail is followed, and one that did is passed over. -/
theorem replay?_concat (steps : List Step) (s : Step) :
    Step.replay? (steps ++ [s]) =
      if s.Passed then (Step.replay? steps).bind fun items => Step.follow? items s
      else Step.replay? steps := by
  rw [Step.replay?, List.filter_append, List.foldlM_append]
  by_cases h : s.Passed
  · simp [Step.replay?, h]
  · simp [Step.replay?, h]

/-- Along a trail the replay has the items that the machine has. -/
theorem replay?_of_trail (traced : settings.tracePushed = true) {gas : Int} {i : Nat} {q : Point}
    (h : (f.trail (.start settings gas))[i]? = some q) :
    Step.replay? (((f.trail (.start settings gas)).take i).map (f.stepAt settings)) =
      some q.machine.stack.items := by
  refine history_of_trail
    (fun past m => Step.replay? (past.map (f.stepAt settings)) = some m.stack.items) rfl ?_ h
  intro past p c m hpast hresult
  rw [List.map_append, List.map_singleton, replay?_concat, if_pos (passed_stepAt hresult), hpast]
  exact follow?_stepAt traced hresult

/-- The replay of all steps of a run succeeds, whether the last of them failed or not. -/
theorem exists_replay? (traced : settings.tracePushed = true) (gas : Int) :
    ∃ items, Step.replay? ((f.trail (.start settings gas)).map (f.stepAt settings)) =
      some items := by
  obtain ⟨last, hlast, -⟩ := run_ends f settings gas true
  obtain ⟨past, hpast⟩ := List.getLast?_eq_some_iff.mp hlast
  have hindex : (f.trail (.start settings gas))[past.length]? = some last := by
    rw [hpast, List.getElem?_concat_length]
  have hbefore := replay?_of_trail traced hindex
  rw [hpast, List.take_left] at hbefore
  rw [hpast, List.map_append, List.map_singleton, replay?_concat, hbefore]
  split
  · rename_i passed
    obtain ⟨c, m, hresult⟩ := ok_of_stepAt passed
    exact ⟨m.stack.items, follow?_stepAt traced hresult⟩
  · exact ⟨last.machine.stack.items, rfl⟩

/-- A step that did not fail tells a word if and only if its instruction produces one, and tells one
that it produces. -/
theorem told_stepAt (traced : settings.tracePushed = true) {p : Point} {c : Control} {m : Machine}
    (h : f.resultAt p = .ok c m) :
    ∃ i, Instruction.ofByte? (f.opcodeAt p.offset) = some i ∧
      ((f.stepAt settings p).pushed.isSome ↔
        ∃ w, f.Produces (f.stepAt settings p) p.machine.stack.items i w) ∧
      ∀ w, (f.stepAt settings p).pushed = some w →
        f.Produces (f.stepAt settings p) p.machine.stack.items i w := by
  obtain ⟨i, hbyte, -, effect⟩ := Machine.effect_of_executeAt h
  refine ⟨i, hbyte, ?_⟩
  have hstep := stepAt_eq settings h
  have hpushed := pushed_stepAt traced h hbyte
  by_cases hpushes : i.pushesValue = true
  · rw [if_pos hpushes] at hpushed
    obtain ⟨w, htop, hw⟩ := effect.produces (s := f.stepAt settings p) (by rw [hstep]; exact hbyte)
      (by rw [hstep]; rfl) (by rw [hstep]; rfl) (by rw [hstep]; rfl) hpushes
    rw [hpushed, htop]
    refine ⟨⟨fun _ => ⟨w, hw⟩, fun _ => rfl⟩, ?_⟩
    intro w' hw'
    obtain rfl := Option.some.inj hw'
    exact hw
  · rw [if_neg hpushes] at hpushed
    rw [hpushed]
    refine ⟨⟨?_, ?_⟩, ?_⟩
    · intro told
      cases told
    · rintro ⟨w, hw⟩
      exact absurd hw.pushesValue hpushes
    · intro w hw
      cases hw

/-- The steps of every run certify the stack: whatever the code, the revision, the call and the gas
are, they can be replayed without a machine, and each word that they tell is the one that its
instruction has to produce from the replayed operands. -/
theorem run_steps_certify_stack (f : Frame) (settings : Settings) (gas : Int)
    (traced : settings.tracePushed = true) : f.CertifiedBy (f.run settings gas true).steps := by
  refine ⟨by rw [run_steps_observed]; exact exists_replay? traced gas, ?_⟩
  intro i s hs passed
  obtain ⟨p, c, m, hp, hresult, rfl⟩ := exists_point_of_step hs passed
  rw [run_steps_observed]
  obtain ⟨instruction, hbyte, htold⟩ := told_stepAt traced hresult
  have hstep := stepAt_eq settings hresult
  have hbefore := replay?_of_trail traced hp
  refine ⟨instruction, p.machine.stack.items, m.stack.items, ?_, ?_, ?_, ?_, ?_⟩
  · rw [hstep]
    exact hbyte
  · rw [← List.map_take]
    exact hbefore
  · rw [← List.map_take, take_succ_trail hp, List.map_append, List.map_singleton, replay?_concat,
      if_pos passed, hbefore]
    exact follow?_stepAt traced hresult
  · rw [hstep]
    rfl
  · exact htold

/-- A code that exchanges two operands, shifts one by the other, copies the result, and ends within
the data of a push. -/
theorem run_steps_certify_stack_shift :
    ({} : Settings).tracePushed = true ∧
      let f := Frame.ofMessage .constantinople
        { code := [0x60, 0x03, 0x60, 0x05, 0x90, 0x1b, 0x80, 0x62, 0x01] } []
      f.CertifiedBy (f.run {} 100 true).steps := by
  refine ⟨rfl, ?_⟩
  intro f
  exact run_steps_certify_stack f {} 100 rfl

end Frame

end EvmDispatch
