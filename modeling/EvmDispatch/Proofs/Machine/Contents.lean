import EvmDispatch.Proofs.Machine.Effect
import EvmDispatch.Proofs.Machine.Trail
import EvmDispatch.Proofs.Word.Bytes

/-!
# What memory and storage hold

Seen over a whole run, the memory is an array without end that starts with zeros, and so is the
storage: an address holds the byte that has been stored there last, and a key the word. What has
been stored is read off the points of the run, from the operands of the instructions that store.
Neither the growth of the memory nor the order of overlapping accesses shows, but for the size of
the memory, which is that of the words up to the furthest byte that has been touched.
-/

namespace EvmDispatch

/-! ## Memory as a function -/

namespace Memory

theorem getD_writeCells (cells : Std.HashMap Nat UInt8) (offset : Nat) (bytes : Bytes)
    (address : Nat) :
    (writeCells cells offset bytes).getD address 0 =
      if offset ≤ address then bytes[address - offset]?.getD (cells.getD address 0)
      else cells.getD address 0 := by
  induction bytes generalizing cells offset with
  | nil => simp [writeCells]
  | cons b rest ih =>
    rw [writeCells, ih, Std.HashMap.getD_insert]
    by_cases hbefore : address < offset
    · have hother : offset ≠ address := by omega
      have hrest : ¬ offset + 1 ≤ address := by omega
      have hall : ¬ offset ≤ address := by omega
      rw [if_neg hrest, if_neg hall, if_neg (by simpa using hother)]
    · by_cases hfirst : address = offset
      · subst hfirst
        rw [if_neg (by omega), if_pos (by simp), if_pos (Nat.le_refl _), Nat.sub_self]
        rfl
      · have hposition : address - offset = address - (offset + 1) + 1 := by omega
        have hother : offset ≠ address := Ne.symm hfirst
        rw [if_pos (by omega), if_neg (by simpa using hother), if_pos (by omega), hposition,
          List.getElem?_cons_succ]

/-- A byte is that of the last write over its address. -/
theorem byteAt_write (m : Memory) (offset : Nat) (bytes : Bytes) (address : Nat) :
    (m.write offset bytes).byteAt address =
      if offset ≤ address then bytes[address - offset]?.getD (m.byteAt address)
      else m.byteAt address :=
  getD_writeCells m.cells offset bytes address

/-- Growing changes no byte. -/
@[simp] theorem byteAt_expanded (m : Memory) (offset size address : Nat) :
    (m.expanded offset size).byteAt address = m.byteAt address := by
  unfold expanded
  split <;> rfl

theorem bytesBefore_eq (m : Memory) (offset size : Nat) (rest : Bytes) :
    m.bytesBefore offset size rest =
      (List.range size).map (fun i => m.byteAt (offset + i)) ++ rest := by
  induction size generalizing rest with
  | zero => rfl
  | succ size ih =>
    rw [bytesBefore, ih, List.range_succ, List.map_append, List.append_assoc]
    rfl

/-- A range consists of the bytes at its addresses. -/
theorem slice_eq (m : Memory) (offset size : Nat) :
    m.slice offset size = (List.range size).map fun i => m.byteAt (offset + i) := by
  rw [slice, bytesBefore_eq, List.append_nil]

/-- The word that is read at an address has the 32 bytes from there on. -/
theorem byte_ofSlice (m : Memory) (start : Nat) {k : Nat} (h : k < 32) :
    (Word.ofSlice (m.slice start 32)).byte k = m.byteAt (start + k) := by
  have hlength : (m.slice start 32).length = 32 := by
    rw [slice_eq, List.length_map, List.length_range]
  have hbyte := Word.getElem?_eq_byte hlength h
  rw [slice_eq, List.getElem?_map, List.getElem?_range h, ← slice_eq] at hbyte
  rw [Word.ofSlice_eq_ofBytes hlength]
  exact (Option.some.inj hbyte).symm

/-- The end of a range; that of an empty one counts for nothing. -/
def rangeEnd (offset size : Nat) : Nat := if size = 0 then 0 else offset + size

/-- A memory of the words up to `furthest` grows to the words up to the end of the range, if that is
further. -/
theorem size_expanded {m : Memory} {furthest : Nat} (h : m.size = 32 * wordsFor furthest)
    (offset size : Nat) :
    (m.expanded offset size).size = 32 * wordsFor (max furthest (rangeEnd offset size)) := by
  unfold expanded rangeEnd wordsFor at *
  by_cases hz : size = 0
  · simp [hz, h]
  · by_cases hs : m.size < offset + size
    · rw [if_pos ⟨hz, hs⟩, if_neg hz]
      show 32 * ((offset + size + 31) / 32) = _
      omega
    · rw [if_neg (by omega), if_neg hz, h]
      omega

end Memory

/-- A word that is stored is found under its key, and nothing else changes. -/
theorem Storage.load_store (s : Storage) (key value other : Word) :
    (s.store key value).load other = if key = other then value else s.load other := by
  unfold store load
  split
  · rename_i hzero
    rw [Word.isZero_iff] at hzero
    rw [Std.HashMap.getD_erase, hzero]
    simp only [beq_iff_eq]
  · rw [Std.HashMap.getD_insert]
    simp only [beq_iff_eq]

/-! ## One instruction -/

namespace Instruction

/-- The byte that an instruction stores at an address. -/
def storedByte? (operands : List Word) (address : Nat) : Instruction → Option UInt8
  | memoryStore =>
    match operands with
    | target :: value :: _ =>
      if target.toNat ≤ address ∧ address < target.toNat + 32 then
        some (value.byte (address - target.toNat))
      else none
    | _ => none
  | memoryStoreByte =>
    match operands with
    | target :: value :: _ => if address = target.toNat then some (value.byte 31) else none
    | _ => none
  | _ => none

/-- The word that an instruction stores under a key. -/
def storedWord? (operands : List Word) (key : Word) : Instruction → Option Word
  | storageStore =>
    match operands with
    | target :: value :: _ => if target = key then some value else none
    | _ => none
  | _ => none

/-- The end of the range of the memory that an instruction touches, if it touches any. -/
def touchedEnd (operands : List Word) : Instruction → Nat
  | memoryLoad | memoryStore =>
    match operands with
    | address :: _ => Memory.rangeEnd address.toNat 32
    | _ => 0
  | memoryStoreByte =>
    match operands with
    | address :: _ => Memory.rangeEnd address.toNat 1
    | _ => 0
  | log _ | halt | revert =>
    match operands with
    | start :: size :: _ => Memory.rangeEnd start.toNat size.toNat
    | _ => 0
  | _ => 0

end Instruction

namespace Machine

variable {m m' : Machine} {f : Frame} {offset : Nat} {i : Instruction} {c : Control}

theorem RangeGrowth.byteAt {start size : Word} {range : Nat × Nat}
    (h : RangeGrowth m start size range m') (address : Nat) :
    m'.memory.byteAt address = m.memory.byteAt address := by
  cases h with
  | empty zero => rfl
  | range counted pos can => exact m.memory.byteAt_expanded _ _ address

theorem RangeGrowth.storage_eq {start size : Word} {range : Nat × Nat}
    (h : RangeGrowth m start size range m') : m'.storage = m.storage := by
  cases h with
  | empty zero => rfl
  | range counted pos can => rfl

/-- Making a range accessible lets the memory reach as far as the range, in whole words. -/
theorem RangeGrowth.size_eq {start size : Word} {range : Nat × Nat} {furthest : Nat}
    (h : RangeGrowth m start size range m') (hm : m.memory.size = 32 * Memory.wordsFor furthest) :
    m'.memory.size =
      32 * Memory.wordsFor (max furthest (Memory.rangeEnd start.toNat size.toNat)) := by
  cases h with
  | empty zero =>
    rw [Word.toNat_of_index? zero, hm]
    simp [Memory.rangeEnd]
  | @range first count counted pos can =>
    rw [Word.toNat_of_index? counted, Word.toNat_of_index? can.index]
    exact Memory.size_expanded hm first count

/-- The bytes of a range that has been made accessible. -/
theorem RangeGrowth.slice_eq {start size : Word} {range : Nat × Nat}
    (h : RangeGrowth m start size range m') :
    m'.memory.slice range.1 range.2 =
      (List.range size.toNat).map fun k => m'.memory.byteAt (start.toNat + k) := by
  cases h with
  | empty zero =>
    rw [Word.toNat_of_index? zero]
    rfl
  | range counted pos can =>
    rw [Word.toNat_of_index? counted, Word.toNat_of_index? can.index, Memory.slice_eq]

/-- An instruction changes the bytes that it stores, and no others. -/
theorem Effect.byteAt (h : Effect f offset i m c m') (address : Nat) :
    m'.memory.byteAt address =
      (i.storedByte? m.stack.items address).getD (m.memory.byteAt address) := by
  cases h with
  | memoryLoad operands can room => exact m.memory.byteAt_expanded _ _ address
  | @memoryStore _ target value rest start operands can =>
    rw [operands, Instruction.storedByte?, Word.toNat_of_index? can.index, Memory.byteAt_write,
      grown, Memory.byteAt_expanded]
    by_cases hbefore : start ≤ address
    · by_cases hinside : address < start + 32
      · rw [if_pos hbefore, if_pos ⟨hbefore, hinside⟩, value.getElem?_toBytes (by omega)]
      · have hend : value.toBytes[address - start]? = none :=
          List.getElem?_eq_none (by rw [value.length_toBytes]; omega)
        rw [if_pos hbefore, if_neg (by omega), hend]
    · rw [if_neg hbefore, if_neg (by omega)]
      rfl
  | @memoryStoreByte _ target value rest start operands can =>
    rw [operands, Instruction.storedByte?, Word.toNat_of_index? can.index, Memory.byteAt_write,
      grown, Memory.byteAt_expanded, value.lowByte_eq]
    by_cases hbefore : start ≤ address
    · by_cases hthere : address = start
      · subst hthere
        simp
      · have hend : [value.byte 31][address - start]? = none :=
          List.getElem?_eq_none (by rw [List.length_singleton]; omega)
        rw [if_pos hbefore, if_neg hthere, hend]
    · rw [if_neg hbefore, if_neg (by omega)]
      rfl
  | log mayChange operands _ counted paid grows => exact grows.byteAt address
  | halt operands grows => exact grows.byteAt address
  | revert operands grows => exact grows.byteAt address
  | _ => rfl

/-- An instruction changes the word that it stores, and no other. -/
theorem Effect.load (h : Effect f offset i m c m') (key : Word) :
    m'.storage.load key = (i.storedWord? m.stack.items key).getD (m.storage.load key) := by
  cases h with
  | @storageStore _ target value rest price mayChange operands priced paid =>
    rw [operands, Instruction.storedWord?, Storage.load_store]
    split <;> rfl
  | log mayChange operands _ counted paid grows =>
    rw [grows.storage_eq]
    rfl
  | halt operands grows =>
    rw [grows.storage_eq]
    rfl
  | revert operands grows =>
    rw [grows.storage_eq]
    rfl
  | _ => rfl

/-- An instruction grows the memory to the words that it touches. -/
theorem Effect.size_eq (h : Effect f offset i m c m') {furthest : Nat}
    (hm : m.memory.size = 32 * Memory.wordsFor furthest) :
    m'.memory.size = 32 * Memory.wordsFor (max furthest (i.touchedEnd m.stack.items)) := by
  cases h with
  | @memoryLoad _ _ _ start operands can room =>
    have hgrown := Memory.size_expanded hm start 32
    rw [operands, Instruction.touchedEnd, Word.toNat_of_index? can.index, ← hgrown]
    simp [grown]
  | @memoryStore _ _ _ _ start operands can =>
    have hgrown := Memory.size_expanded hm start 32
    rw [operands, Instruction.touchedEnd, Word.toNat_of_index? can.index, ← hgrown]
    simp [grown]
  | @memoryStoreByte _ _ _ _ start operands can =>
    have hgrown := Memory.size_expanded hm start 1
    rw [operands, Instruction.touchedEnd, Word.toNat_of_index? can.index, ← hgrown]
    simp [grown]
  | log mayChange operands _ counted paid grows =>
    rw [operands, Instruction.touchedEnd]
    exact grows.size_eq hm
  | halt operands grows =>
    rw [operands, Instruction.touchedEnd]
    exact grows.size_eq hm
  | revert operands grows =>
    rw [operands, Instruction.touchedEnd]
    exact grows.size_eq hm
  | _ => simpa [Instruction.touchedEnd] using hm

end Machine

/-! ## A whole run -/

namespace Frame

/-- The instruction at a point. -/
def instructionAt? (f : Frame) (p : Point) : Option Instruction :=
  Instruction.ofByte? (f.opcodeAt p.offset)

/-- The byte that the instructions at some points have stored at an address last. -/
def storedByte (f : Frame) (points : List Point) (address : Nat) : UInt8 :=
  (points.reverse.findSome? fun p =>
    (f.instructionAt? p).bind (·.storedByte? p.machine.stack.items address)).getD 0

/-- The word that the instructions at some points have stored under a key last. -/
def storedWord (f : Frame) (points : List Point) (key : Word) : Word :=
  (points.reverse.findSome? fun p =>
    (f.instructionAt? p).bind (·.storedWord? p.machine.stack.items key)).getD .zero

/-- The furthest end of the ranges that the instructions at some points touch. -/
def furthest (f : Frame) (points : List Point) : Nat :=
  (points.map fun p =>
    ((f.instructionAt? p).map (·.touchedEnd p.machine.stack.items)).getD 0).foldl max 0

variable {f : Frame} {settings : Settings} {gas : Int}

/-- What the instruction at the last of some points has stored counts, and if it has stored nothing,
what those at the points before it have. -/
theorem lastStored_concat {α : Type} (stored : Point → Option α) (initial : α) (past : List Point)
    (p : Point) :
    ((past ++ [p]).reverse.findSome? stored).getD initial =
      (stored p).getD ((past.reverse.findSome? stored).getD initial) := by
  rw [List.reverse_append, List.reverse_singleton, List.singleton_append, List.findSome?_cons]
  cases stored p <;> rfl

/-- The last store over an address counts, or an earlier one if it was not over it. -/
theorem storedByte_concat {p : Point} {i : Instruction} (h : f.instructionAt? p = some i)
    (past : List Point) (address : Nat) :
    f.storedByte (past ++ [p]) address =
      (i.storedByte? p.machine.stack.items address).getD (f.storedByte past address) := by
  rw [storedByte, lastStored_concat, h]
  rfl

/-- The last store under a key counts, or an earlier one if it was under another. -/
theorem storedWord_concat {p : Point} {i : Instruction} (h : f.instructionAt? p = some i)
    (past : List Point) (key : Word) :
    f.storedWord (past ++ [p]) key =
      (i.storedWord? p.machine.stack.items key).getD (f.storedWord past key) := by
  rw [storedWord, lastStored_concat, h]
  rfl

/-- The furthest byte is that of the last instruction, or of one before. -/
theorem furthest_concat {p : Point} {i : Instruction} (h : f.instructionAt? p = some i)
    (past : List Point) :
    f.furthest (past ++ [p]) = max (f.furthest past) (i.touchedEnd p.machine.stack.items) := by
  simp [furthest, h]

/-- That a machine holds what the instructions at some points have stored. -/
structure Holds (f : Frame) (past : List Point) (m : Machine) : Prop where
  memory : ∀ address, m.memory.byteAt address = f.storedByte past address
  storage : ∀ key, m.storage.load key = f.storedWord past key
  size : m.memory.size = 32 * Memory.wordsFor (f.furthest past)

/-- An instruction that does not fail keeps the record of what was stored. -/
theorem Holds.step {past : List Point} {p : Point} {c : Control} {m : Machine}
    (hpast : f.Holds past p.machine) (h : f.resultAt p = .ok c m) : f.Holds (past ++ [p]) m := by
  obtain ⟨i, hinstruction, -, effect⟩ := Machine.effect_of_executeAt h
  refine ⟨fun address => ?_, fun key => ?_, ?_⟩
  · rw [storedByte_concat hinstruction, ← hpast.memory]
    exact effect.byteAt address
  · rw [storedWord_concat hinstruction, ← hpast.storage]
    exact effect.load key
  · rw [furthest_concat hinstruction]
    exact effect.size_eq hpast.size

theorem Holds.start (f : Frame) (settings : Settings) (gas : Int) :
    f.Holds [] (Point.start settings gas).machine where
  memory address := Std.HashMap.getD_empty
  storage key := Std.HashMap.getD_empty
  size := by simp [Point.start, furthest, Memory.wordsFor]

/-- At every point of a run the machine holds what has been stored before. -/
theorem holds_of_trail {i : Nat} {p : Point} (h : (f.trail (.start settings gas))[i]? = some p) :
    f.Holds ((f.trail (.start settings gas)).take i) p.machine :=
  history_of_trail f.Holds (.start f settings gas) (fun _ _ _ _ hpast hresult => hpast.step hresult)
    h

/-- That the instruction at a point, which leads to the machine `m`, reads what the instructions at
the points before it have stored. -/
structure Recalls (f : Frame) (past : List Point) (p : Point) (m : Machine) : Prop where
  memoryLoad : f.instructionAt? p = some .memoryLoad →
    ∃ address rest w, p.machine.stack.items = address :: rest ∧ m.stack.items = w :: rest ∧
      ∀ k < 32, w.byte k = f.storedByte past (address.toNat + k)
  storageLoad : f.instructionAt? p = some .storageLoad →
    ∃ key rest, p.machine.stack.items = key :: rest ∧
      m.stack.items = f.storedWord past key :: rest

/-- While the record holds, an instruction reads what was stored. -/
theorem Holds.recalls {past : List Point} {p : Point} {c : Control} {m : Machine}
    (hpast : f.Holds past p.machine) (h : f.resultAt p = .ok c m) : f.Recalls past p m := by
  obtain ⟨i, hinstruction, -, effect⟩ := Machine.effect_of_executeAt h
  refine ⟨fun hload => ?_, fun hload => ?_⟩
  · obtain rfl := Option.some.inj (hinstruction.symm.trans hload)
    cases effect with
    | @memoryLoad _ address rest start operands can room =>
      refine ⟨address, rest, _, operands, rfl, ?_⟩
      intro k hk
      rw [Memory.byte_ofSlice _ _ hk, Machine.grown, Memory.byteAt_expanded,
        Word.toNat_of_index? can.index]
      exact hpast.memory (start + k)
  · obtain rfl := Option.some.inj (hinstruction.symm.trans hload)
    cases effect with
    | @storageLoad _ key rest operands room =>
      refine ⟨key, rest, operands, ?_⟩
      rw [← hpast.storage]
      rfl

/-- The output of a run that ends with a range of the memory. -/
theorem Holds.output {past : List Point} {last : Point} {status : Status} {gasLeft : Int}
    {output : Bytes} (hpast : f.Holds past last.machine) (h : f.EndsAt last status gasLeft output)
    (hstatus : status = .success ∨ status = .revert)
    (hinstruction : f.instructionAt? last = some .halt ∨ f.instructionAt? last = some .revert) :
    ∃ start size rest, last.machine.stack.items = start :: size :: rest ∧
      output = (List.range size.toNat).map fun k =>
        f.storedByte (past ++ [last]) (start.toNat + k) := by
  cases h with
  | @finish reverts first count m result =>
    obtain ⟨i, hi, -, effect⟩ := Machine.effect_of_executeAt result
    have hbyte : f.instructionAt? last = some i := hi
    have hnow := hpast.step result
    cases effect with
    | stop => simp [hbyte] at hinstruction
    | @halt _ _ start size rest range operands grows =>
      refine ⟨start, size, rest, operands, ?_⟩
      simp only [grows.slice_eq, hnow.memory]
    | @revert _ _ start size rest range operands grows =>
      refine ⟨start, size, rest, operands, ?_⟩
      simp only [grows.slice_eq, hnow.memory]
  | fault result =>
    exact absurd hstatus (not_passed_of_error result)

/-- Memory and storage are arrays without end that start with zeros. Whatever the code, the
settings, the revision, the call and the gas are: after every step that does not fail the size of
the memory is that of the words up to the furthest end of a range touched so far; what is read from
memory and storage is what has been stored there last, or zero; and a run that ends with a range of
the memory has the bytes stored there as output. -/
theorem run_recalls (f : Frame) (settings : Settings) (gas : Int) :
    let points := f.trail (.start settings gas)
    let steps := (f.run settings gas true).steps
    steps = points.map (f.stepAt settings) ∧
      (∀ i step, steps[i]? = some step → step.status = .success ∨ step.status = .revert →
        step.memorySize = 32 * Memory.wordsFor (f.furthest (points.take (i + 1)))) ∧
      (∀ i p c m, points[i]? = some p → f.resultAt p = .ok c m →
        f.Recalls (points.take i) p m) ∧
      ∀ observed last, points.getLast? = some last →
        let reply := f.run settings gas observed
        reply.status = .success ∨ reply.status = .revert →
        f.instructionAt? last = some .halt ∨ f.instructionAt? last = some .revert →
        ∃ start size rest, last.machine.stack.items = start :: size :: rest ∧
          reply.output = (List.range size.toNat).map fun k =>
            f.storedByte points (start.toNat + k) := by
  intro points steps
  refine ⟨run_steps_observed f settings gas, ?_, ?_, ?_⟩
  · intro i step hstep hstatus
    obtain ⟨p, c, m, hp, hresult, rfl⟩ := exists_point_of_step hstep hstatus
    rw [(stepAt_of_ok settings hresult).2, take_succ_trail hp]
    exact ((holds_of_trail hp).step hresult).size
  · intro i p c m hp hresult
    exact (holds_of_trail hp).recalls hresult
  · intro observed last hlast reply hstatus hinstruction
    obtain ⟨last', hlast', hends⟩ := run_ends f settings gas observed
    obtain rfl := Option.some.inj (hlast.symm.trans hlast')
    obtain ⟨past, hpast⟩ := List.getLast?_eq_some_iff.mp hlast
    have hindex : points[past.length]? = some last := by
      rw [hpast, List.getElem?_concat_length]
    have hholds := holds_of_trail hindex
    rw [show f.trail (.start settings gas) = past ++ [last] from hpast, List.take_left] at hholds
    rw [hpast]
    exact hholds.output hends hstatus hinstruction

end Frame

end EvmDispatch
