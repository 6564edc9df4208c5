import EvmDispatch.Proofs.Machine.Cause

/-!
# What the end of a run tells

A run ends by the status of its last instruction, and most statuses tell which instruction that can
have been. An undefined instruction, one that needs the chain around the frame, one that completes
the run and one that asks for it to be undone are told apart by the status, and each status by the
opcode (`EndsAt.ending`).
-/

namespace EvmDispatch

/-! ## Opcodes -/

/-- The opcodes that the machine carries out itself. -/
def IsCarriedOut (opcode : UInt8) : Prop :=
  opcode ∈ ([0x00, 0x01, 0x02, 0x03, 0x10, 0x11, 0x14, 0x15, 0x16, 0x17, 0x18, 0x19, 0x1b, 0x1c,
      0x30, 0x33, 0x35, 0x36, 0x38, 0xf3, 0xfd] : List UInt8) ∨
    0x50 ≤ opcode ∧ opcode ≤ 0x5b ∨ 0x60 ≤ opcode ∧ opcode ≤ 0x9f ∨ 0xa0 ≤ opcode ∧ opcode ≤ 0xa4

instance (opcode : UInt8) : Decidable (IsCarriedOut opcode) :=
  inferInstanceAs (Decidable (_ ∨ _ ∨ _ ∨ _))

/-- The opcodes that a revision defines and the machine leaves out. -/
def IsLeftOut (r : Revision) (opcode : UInt8) : Prop :=
  (Instruction.ofOpcode? r opcode).isSome ∧ opcode ≠ 0xfe ∧ ¬ IsCarriedOut opcode

namespace Instruction

/-- Whether the instruction needs the chain around the frame. -/
def isHost : Instruction → Bool
  | host _ => true
  | _ => false

/-- What the opcode matrix says of the opcodes that end a run. -/
theorem ending_of_ofByte? {opcode : UInt8} {i : Instruction} (h : ofByte? opcode = some i) :
    (i = .stop ↔ opcode = 0x00) ∧ (i = .halt ↔ opcode = 0xf3) ∧ (i = .revert ↔ opcode = 0xfd) ∧
      (i.isHost ↔ opcode ≠ 0xfe ∧ ¬ IsCarriedOut opcode) := by
  have hmatrix := of_opcode
    (fun opcode i => decide ((i = .stop ↔ opcode = 0x00) ∧ (i = .halt ↔ opcode = 0xf3) ∧
      (i = .revert ↔ opcode = 0xfd) ∧ (i.isHost ↔ opcode ≠ 0xfe ∧ ¬ IsCarriedOut opcode)))
    (by decide +kernel) h
  exact of_decide_eq_true hmatrix

section Executable

variable {r : Revision} {opcode byte : UInt8} {i : Instruction}

/-- An instruction that has one opcode is executed at this opcode, from the revision on that
introduced it. -/
theorem executable?_iff_of_unique (known : ofByte? byte = some i)
    (unique : ∀ b, ofByte? b = some i → b = byte) (valid : i ≠ .invalid) :
    executable? r opcode = some i ↔ opcode = byte ∧ i.introducedIn ≤ r := by
  rw [executable?_eq_some_iff, ofOpcode?, Option.filter_eq_some_iff, decide_eq_true_iff]
  constructor
  · rintro ⟨⟨hopcode, introduced⟩, -⟩
    exact ⟨unique opcode hopcode, introduced⟩
  · rintro ⟨rfl, introduced⟩
    exact ⟨⟨known, introduced⟩, valid⟩

/-- One that every revision defines is executed at this opcode under all of them. -/
theorem executable?_iff_of_frontier (known : ofByte? byte = some i)
    (unique : ∀ b, ofByte? b = some i → b = byte) (valid : i ≠ .invalid)
    (first : i.introducedIn = .frontier) : executable? r opcode = some i ↔ opcode = byte := by
  have introduced : i.introducedIn ≤ r := by
    rw [first]
    exact Nat.zero_le _
  rw [executable?_iff_of_unique known unique valid, and_iff_left introduced]

end Executable

/-- The instructions that need the chain are executed at the opcodes that are left out. -/
theorem executable?_host_iff {r : Revision} {opcode : UInt8} :
    (∃ op, executable? r opcode = some (.host op)) ↔ IsLeftOut r opcode := by
  constructor
  · rintro ⟨op, h⟩
    obtain ⟨hopcode, -⟩ := executable?_eq_some_iff.mp h
    obtain ⟨-, -, -, hhost⟩ := ending_of_ofByte? (ofByte?_of_executable? h)
    exact ⟨by rw [hopcode]; rfl, hhost.mp rfl⟩
  · rintro ⟨hsome, hopcode⟩
    obtain ⟨i, hi⟩ := Option.isSome_iff_exists.mp hsome
    obtain ⟨-, -, -, hhost⟩ := ending_of_ofByte? (ofByte?_of_ofOpcode? hi)
    have hkind := hhost.mpr hopcode
    cases i with
    | host op => exact ⟨op, executable?_eq_some_iff.mpr ⟨hi, nofun⟩⟩
    | _ => cases hkind

end Instruction

/-! ## Completing -/

namespace Machine

variable {f : Frame} {offset : Nat} {m m' : Machine}

/-- That a run can end with output: there are two operands, and the range that they name is empty,
or lies in the greatest memory and can be paid for. -/
def CanFinish (m : Machine) : Prop :=
  ∃ start size rest, m.stack.items = start :: size :: rest ∧
    (size.toNat = 0 ∨
      start.toNat + size.toNat ≤ Memory.maxSize ∧
        (m.growthPrice start.toNat size.toNat : Int) ≤ m.gas)

theorem grow_of_canGrow {address : Word} {size start : Nat} (can : m.CanGrow address size start) :
    grow address size m = .ok start (m.grown start size) := by
  unfold grow
  simp only [can.index, bind, EStateM.bind, get_apply, Memory.expansionPrice_eq,
    Memory.expand_eq, if_pos can.bounded, require, pure_apply]
  have hcharge := charge_eq_ok_iff (u := ()).mpr ⟨can.paid, rfl⟩
  rw [growthPrice] at hcharge
  simp only [hcharge]
  rfl

theorem growRange_of_growth {address size : Word} {range : Nat × Nat}
    (h : RangeGrowth m address size range m') : growRange address size m = .ok range m' := by
  unfold growRange
  cases h with
  | empty zero =>
    rw [zero]
    rfl
  | range counted pos can =>
    obtain ⟨n, rfl⟩ := Nat.exists_eq_succ_of_ne_zero pos
    rw [counted]
    exact bind_apply (grow_of_canGrow can)

/-- What can end with output does. -/
theorem canFinish_iff {reverts : Bool} :
    m.CanFinish ↔ ∃ start size m', finish reverts m = .ok (.finish reverts start size) m' := by
  constructor
  · rintro ⟨start, size, rest, hitems, hrange⟩
    have hgrowth : ∃ range m', RangeGrowth (m.withItems rest) start size range m' := by
      by_cases hsize : size.toNat = 0
      · have hindex : size.index? = some 0 := by
          rw [Word.index?_of_lt (by omega), hsize]
        exact ⟨_, _, .empty hindex⟩
      · obtain ⟨bounded, paid⟩ := hrange.resolve_left hsize
        -- the bounds of the greatest memory fit into one limb
        have hlimbs : start.toNat < 2 ^ 64 ∧ size.toNat < 2 ^ 64 := by
          unfold Memory.maxSize at bounded
          omega
        exact ⟨_, _, .range (Word.index?_of_lt hlimbs.2) hsize
          ⟨Word.index?_of_lt hlimbs.1, .inr bounded, paid⟩⟩
    obtain ⟨range, m', hgrowth⟩ := hgrowth
    refine ⟨range.1, range.2, m', ?_⟩
    rw [finish, pop_bind_apply hitems, pop_bind_apply rfl]
    exact bind_apply (growRange_of_growth hgrowth)
  · rintro ⟨start', size', m', h⟩
    obtain ⟨start, size, rest, range, hitems, hgrowth, -⟩ := finish_eq_ok h
    refine ⟨start, size, rest, hitems, ?_⟩
    cases hgrowth with
    | empty zero => exact .inl (Word.toNat_of_index? zero)
    | range counted pos can =>
      rw [Word.toNat_of_index? counted, Word.toNat_of_index? can.index]
      exact .inr ⟨can.bounded.resolve_left pos, can.paid⟩

/-- What is free is carried out as long as there is no debt. -/
theorem executeAt_of_free {i : Instruction} (funded : 0 ≤ m.gas)
    (hi : Instruction.executable? f.revision (f.opcodeAt offset) = some i)
    (free : i.price f.revision = 0) : f.executeAt offset m = perform f offset i m := by
  have hgas : m.gas - (0 : Nat) = m.gas := Int.sub_zero m.gas
  rw [executeAt_apply m hi, free, if_pos (by exact funded), hgas]

/-- What is executed ends a run if and only if it stops, or ends with output and can. -/
theorem finishes_iff (funded : 0 ≤ m.gas) {reverts : Bool} :
    (∃ start size m', f.executeAt offset m = .ok (.finish reverts start size) m') ↔
      Instruction.executable? f.revision (f.opcodeAt offset) = some .stop ∧ reverts = false ∨
        Instruction.executable? f.revision (f.opcodeAt offset) =
          some (if reverts then .revert else .halt) ∧ m.CanFinish := by
  constructor
  · rintro ⟨start, size, m', h⟩
    obtain ⟨i, hi, -, hperform⟩ := executeAt_eq_ok h
    generalize hc : Control.finish reverts start size = c at h hperform
    cases effect_of_perform hperform with
    | stop =>
      cases hc
      exact .inl ⟨hi, rfl⟩
    | halt operands grows =>
      cases hc
      rw [executeAt_of_free funded hi rfl] at h
      exact .inr ⟨hi, canFinish_iff.mpr ⟨_, _, _, h⟩⟩
    | revert operands grows =>
      cases hc
      rw [executeAt_of_free funded hi rfl] at h
      exact .inr ⟨hi, canFinish_iff.mpr ⟨_, _, _, h⟩⟩
    | _ => cases hc
  · rintro (⟨hi, rfl⟩ | ⟨hi, hfinish⟩)
    · rw [executeAt_of_free funded hi rfl]
      exact ⟨0, 0, m, rfl⟩
    · cases reverts with
      | true =>
        rw [executeAt_of_free funded hi rfl]
        exact canFinish_iff.mp hfinish
      | false =>
        rw [executeAt_of_free funded hi rfl]
        exact canFinish_iff.mp hfinish

/-- An instruction is undefined if and only if it may not be executed. -/
theorem undefined_iff (height : m.stack.depth ≤ m.stack.limit) :
    (∃ m', f.executeAt offset m = .error .undefinedInstruction m') ↔
      Instruction.executable? f.revision (f.opcodeAt offset) = none := by
  constructor
  · rintro ⟨m', h⟩
    cases fault_of_executeAt height h with
    | undefined hnone => exact hnone
    | failed hi paid cause _ => cases cause
  · intro hnone
    exact ⟨m, executeAt_of_none m hnone⟩

/-- The machine fails by an error of its own exactly where it leaves an instruction out. -/
theorem leftOut_iff (funded : 0 ≤ m.gas) (height : m.stack.depth ≤ m.stack.limit) :
    (∃ m', f.executeAt offset m = .error .internalError m') ↔
      ∃ op, Instruction.executable? f.revision (f.opcodeAt offset) = some (.host op) := by
  constructor
  · rintro ⟨m', h⟩
    cases fault_of_executeAt height h with
    | failed hi paid cause _ =>
      cases cause with
      | host => exact ⟨_, hi⟩
  · rintro ⟨op, hi⟩
    rw [executeAt_of_free funded hi rfl]
    exact ⟨m, rfl⟩

end Machine

/-! ## Runs -/

/-- What the status of a run tells of its last instruction, whose opcode is executed under a
revision, by a machine in some state. -/
structure Ending (r : Revision) (opcode : UInt8) (m : Machine) (status : Status) : Prop where
  listed : status ∈ [.success, .revert, .outOfGas, .undefinedInstruction, .stackOverflow,
    .stackUnderflow, .badJumpDestination, .staticModeViolation, .internalError]
  undefined : status = .undefinedInstruction ↔
    opcode = 0xfe ∨ Instruction.ofOpcode? r opcode = none
  leftOut : status = .internalError ↔ IsLeftOut r opcode
  reverted : status = .revert ↔ opcode = 0xfd ∧ Revision.byzantium ≤ r ∧ m.CanFinish
  completed : status = .success ↔ opcode = 0x00 ∨ opcode = 0xf3 ∧ m.CanFinish

namespace Frame

variable {f : Frame} {settings : Settings} {gas : Int} {p : Point} {status : Status}
  {gasLeft : Int} {output : Bytes}

/-- A run that starts without a debt has none at any point. -/
theorem gas_nonneg_of_mem_trail (funded : 0 ≤ gas) (hp : p ∈ f.trail (.start settings gas)) :
    0 ≤ p.machine.gas := by
  refine forall_mem_trail (fun p => 0 ≤ p.machine.gas) ?_ funded p hp
  intro p q _ hnext
  exact (next?_gas_lt hnext).2

/-- A run completes or asks to be undone if and only if its last instruction does. -/
theorem EndsAt.finish_iff (h : f.EndsAt p status gasLeft output) (reverts : Bool) :
    status = (if reverts then .revert else .success) ↔
      ∃ start size m, f.resultAt p = .ok (.finish reverts start size) m := by
  cases h with
  | @finish reverts' start size m result =>
    constructor
    · intro hstatus
      obtain rfl : reverts' = reverts := by
        cases reverts' <;> cases reverts <;> first | rfl | cases hstatus
      exact ⟨start, size, m, result⟩
    · rintro ⟨start', size', m', result'⟩
      cases result.symm.trans result'
      rfl
  | fault result =>
    constructor
    · rintro rfl
      refine absurd ?_ (not_passed_of_error result)
      cases reverts with
      | true => exact .inr rfl
      | false => exact .inl rfl
    · rintro ⟨start, size, m, result'⟩
      cases result.symm.trans result'

/-- A run ends by a fault if and only if its last instruction fails by it. -/
theorem EndsAt.fault_iff (h : f.EndsAt p status gasLeft output) {fault : Status}
    (isFault : fault.isFault) : status = fault ↔ ∃ m, f.resultAt p = .error fault m := by
  cases h with
  | @finish reverts start size m result =>
    constructor
    · rintro rfl
      cases reverts <;> cases isFault
    · rintro ⟨m', result'⟩
      cases result.symm.trans result'
  | @fault status m result =>
    constructor
    · rintro rfl
      exact ⟨m, result⟩
    · rintro ⟨m', result'⟩
      cases result.symm.trans result'
      rfl

/-- A run that starts without a debt ends as its status tells. -/
theorem EndsAt.ending (h : f.EndsAt p status gasLeft output) (funded : 0 ≤ p.machine.gas)
    (height : p.machine.stack.depth ≤ p.machine.stack.limit) :
    Ending f.revision (f.opcodeAt p.offset) p.machine status where
  listed := by
    cases h with
    | @finish reverts start size m result => cases reverts <;> decide
    | fault result =>
      cases Machine.fault_of_executeAt height result with
      | undefined _ => decide
      | unpaid _ _ => decide
      | failed _ _ cause _ => cases cause <;> decide
  undefined := by
    rw [h.fault_iff rfl, ← Instruction.executable?_eq_none_iff]
    exact Machine.undefined_iff height
  leftOut := by
    rw [h.fault_iff rfl, ← Instruction.executable?_host_iff]
    exact Machine.leftOut_iff funded height
  reverted := by
    have hrevert : Instruction.executable? f.revision (f.opcodeAt p.offset) = some .revert ↔
        f.opcodeAt p.offset = 0xfd ∧ Revision.byzantium ≤ f.revision :=
      Instruction.executable?_iff_of_unique rfl
        (fun _ h => (Instruction.ending_of_ofByte? h).2.2.1.mp rfl) nofun
    rw [← and_assoc, ← hrevert]
    have hfinish := (h.finish_iff true).trans (Machine.finishes_iff funded)
    simpa using hfinish
  completed := by
    have hstop : Instruction.executable? f.revision (f.opcodeAt p.offset) = some .stop ↔
        f.opcodeAt p.offset = 0x00 :=
      Instruction.executable?_iff_of_frontier rfl
        (fun _ h => (Instruction.ending_of_ofByte? h).1.mp rfl) nofun rfl
    have hhalt : Instruction.executable? f.revision (f.opcodeAt p.offset) = some .halt ↔
        f.opcodeAt p.offset = 0xf3 :=
      Instruction.executable?_iff_of_frontier rfl
        (fun _ h => (Instruction.ending_of_ofByte? h).2.1.mp rfl) nofun rfl
    rw [← hstop, ← hhalt]
    have hfinish := (h.finish_iff false).trans (Machine.finishes_iff funded)
    simpa using hfinish

end Frame

end EvmDispatch
