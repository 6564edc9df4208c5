import EvmDispatch.Proofs.Machine.Contents

/-!
# Memory as an array with all its bytes

The memory of a frame keeps the bytes that have been written, and no others. It stands for an array
that has as many bytes as its size says, and that grows by zeros. Whatever is asked of the two one
after the other, they have the same price, refuse to grow for the same reason, read the same bytes,
and have an access outside of their bounds at the same time (`Memory.accessAll_represents`). The
instructions of a run never do (`Frame.memory_of_trail`), so that what holds of the memory of a run
holds of the array.
-/

namespace EvmDispatch

/-! ## Accesses -/

/-- What can be asked of a memory. -/
inductive Access where
  | price (offset size : Nat)
  | grow (offset size : Nat)
  | read (offset size : Nat)
  | write (offset : Nat) (bytes : Bytes)
deriving DecidableEq, Repr

/-- What a memory answers. -/
inductive Access.Answer where
  | price (answer : Except Status Nat)
  | growth (answer : Except Status Unit)
  | bytes (bytes : Bytes)
  | written

/-- Accesses a memory again and again, unless an access is outside of its bounds. -/
def accessAll {σ : Type} (access : σ → Access → Option (Access.Answer × σ)) (s : σ) :
    List Access → Option (List Access.Answer × σ)
  | [] => some ([], s)
  | first :: rest =>
    match access s first with
    | none => none
    | some (answer, s) =>
      (accessAll access s rest).map fun (answers, s) => (answer :: answers, s)

/-- What a memory answers to an access inside of its bounds. An empty range is read everywhere. -/
def Memory.access (m : Memory) : Access → Option (Access.Answer × Memory)
  | .price offset size => some (.price (m.expansionPrice offset size), m)
  | .grow offset size =>
    match m.expand offset size with
    | .ok m => some (.growth (.ok ()), m)
    | .error status => some (.growth (.error status), m)
  | .read offset size =>
    if m.covers offset size then some (.bytes (m.slice offset size), m) else none
  | .write offset bytes =>
    if offset + bytes.length ≤ m.size then some (.written, m.write offset bytes) else none

/-! ## The array -/

/-- A memory that keeps all its bytes. -/
structure FlatMemory where
  data : Bytes := []
deriving DecidableEq, Repr

namespace FlatMemory

def expansionPrice (m : FlatMemory) (offset size : Nat) : Except Status Nat := do
  match ← Memory.accessEnd offset size with
  | some stop =>
    if m.data.length < stop then
      return Memory.wordsPrice (Memory.wordsFor stop) -
        Memory.wordsPrice (Memory.wordsFor m.data.length)
    else return 0
  | none => return 0

/-- The array with zeros behind it up to a size. -/
def resize (m : FlatMemory) (size : Nat) : FlatMemory where
  data := m.data ++ List.replicate (size - m.data.length) 0

def expand (m : FlatMemory) (offset size : Nat) : Except Status FlatMemory := do
  match ← Memory.accessEnd offset size with
  | some stop =>
    if m.data.length < stop then return m.resize (32 * Memory.wordsFor stop) else return m
  | none => return m

def access (m : FlatMemory) : Access → Option (Access.Answer × FlatMemory)
  | .price offset size => some (.price (m.expansionPrice offset size), m)
  | .grow offset size =>
    match m.expand offset size with
    | .ok m => some (.growth (.ok ()), m)
    | .error status => some (.growth (.error status), m)
  | .read offset size =>
    if size = 0 then some (.bytes [], m)
    else if offset + size ≤ m.data.length then
      some (.bytes ((m.data.drop offset).take size), m)
    else none
  | .write offset bytes =>
    if offset + bytes.length ≤ m.data.length then
      some (.written, ⟨m.data.take offset ++ bytes ++ m.data.drop (offset + bytes.length)⟩)
    else none

end FlatMemory

namespace Memory

/-- That a memory stands for an array: it has its size and its bytes, and nothing has been written
behind its end. -/
structure Represents (m : Memory) (flat : FlatMemory) : Prop where
  size : m.size = flat.data.length
  byteAt : ∀ address, m.byteAt address = flat.data[address]?.getD 0

/-! ## One access -/

section Represents

variable {m : Memory} {flat : FlatMemory}

theorem represents_empty : Represents {} {} where
  size := rfl
  byteAt _ := Std.HashMap.getD_empty

/-- The price of a growth is the same for both. -/
theorem Represents.expansionPrice_eq (h : m.Represents flat) (offset size : Nat) :
    m.expansionPrice offset size = flat.expansionPrice offset size := by
  obtain ⟨hsize, -⟩ := h
  obtain ⟨size', cells⟩ := m
  obtain rfl : size' = flat.data.length := hsize
  rfl

/-- Zeros behind the end of the array are what the memory reads there. -/
theorem Represents.resize (h : m.Represents flat) {size : Nat} (hsize : flat.data.length ≤ size) :
    Represents { m with size } (flat.resize size) where
  size := by
    simp only [FlatMemory.resize, List.length_append, List.length_replicate]
    omega
  byteAt address := by
    have hbyte : m.byteAt address = flat.data[address]?.getD 0 := h.byteAt address
    show m.byteAt address = _
    rw [hbyte, FlatMemory.resize]
    by_cases hinside : address < flat.data.length
    · rw [List.getElem?_append_left hinside]
    · rw [List.getElem?_append_right (by omega), List.getElem?_eq_none (by omega),
        List.getElem?_replicate]
      split <;> rfl

/-- Memory and array grow together, or neither does. -/
theorem Represents.expand (h : m.Represents flat) (offset size : Nat) :
    (∃ m' flat', m.expand offset size = .ok m' ∧ flat.expand offset size = .ok flat' ∧
        m'.Represents flat') ∨
      ∃ status, m.expand offset size = .error status ∧ flat.expand offset size = .error status := by
  unfold Memory.expand FlatMemory.expand
  cases accessEnd offset size with
  | error status => exact .inr ⟨status, rfl, rfl⟩
  | ok stop? =>
    refine .inl ?_
    cases stop? with
    | none => exact ⟨m, flat, rfl, rfl, h⟩
    | some stop =>
      by_cases hgrows : flat.data.length < stop
      · have hwords : flat.data.length ≤ 32 * wordsFor stop := by
          unfold wordsFor
          omega
        refine ⟨{ m with size := 32 * wordsFor stop }, flat.resize (32 * wordsFor stop), ?_, ?_,
          h.resize hwords⟩
        · exact if_pos (by rwa [h.size])
        · exact if_pos hgrows
      · refine ⟨m, flat, ?_, ?_, h⟩
        · exact if_neg (by rwa [h.size])
        · exact if_neg hgrows

/-- A range inside the array is read as the memory has it. -/
theorem Represents.slice_eq (h : m.Represents flat) {offset size : Nat}
    (inside : offset + size ≤ flat.data.length) :
    m.slice offset size = (flat.data.drop offset).take size := by
  rw [Memory.slice_eq]
  refine List.ext_getElem? fun i => ?_
  by_cases hi : i < size
  · rw [List.getElem?_map, List.getElem?_range hi, List.getElem?_take_of_lt hi,
      List.getElem?_drop, Option.map_some, h.byteAt,
      List.getElem?_eq_getElem (show offset + i < flat.data.length by omega)]
    rfl
  · rw [List.getElem?_eq_none (by simpa using Nat.le_of_not_lt hi),
      List.getElem?_eq_none (by rw [List.length_take]; omega)]

/-- A range inside the array is written as the memory has it. -/
theorem Represents.write (h : m.Represents flat) {offset : Nat} {bytes : Bytes}
    (inside : offset + bytes.length ≤ flat.data.length) :
    Represents (m.write offset bytes)
      ⟨flat.data.take offset ++ bytes ++ flat.data.drop (offset + bytes.length)⟩ where
  size := by
    simp only [size_write, h.size, List.length_append, List.length_take, List.length_drop]
    omega
  byteAt address := by
    have hfront : (flat.data.take offset).length = offset := by
      rw [List.length_take]
      omega
    rw [byteAt_write, h.byteAt, List.append_assoc]
    by_cases hbefore : address < offset
    · rw [if_neg (by omega), List.getElem?_append_left (by omega), List.getElem?_take_of_lt hbefore]
    · rw [if_pos (by omega), List.getElem?_append_right (by omega), hfront]
      by_cases hinside : address - offset < bytes.length
      · rw [List.getElem?_append_left hinside, List.getElem?_eq_getElem hinside]
        rfl
      · have hbehind : offset + bytes.length + (address - offset - bytes.length) = address := by
          omega
        rw [List.getElem?_append_right (by omega), List.getElem?_eq_none (by omega),
          List.getElem?_drop, hbehind]
        rfl

/-- Memory and array have given the same answers, and the one goes on standing for the other. -/
def Agrees {α : Type} (answered : α × Memory) (answered' : α × FlatMemory) : Prop :=
  answered.1 = answered'.1 ∧ answered.2.Represents answered'.2

/-- An access has the same answer on both sides, or is outside of the bounds of both. -/
theorem Represents.access (h : m.Represents flat) (a : Access) :
    Option.Rel Agrees (m.access a) (flat.access a) := by
  cases a with
  | price offset size =>
    exact .some ⟨congrArg Access.Answer.price (h.expansionPrice_eq offset size), h⟩
  | grow offset size =>
    rcases h.expand offset size with ⟨m', flat', hm, hflat, h'⟩ | ⟨status, hm, hflat⟩
    · simp only [Memory.access, FlatMemory.access, hm, hflat]
      exact .some ⟨rfl, h'⟩
    · simp only [Memory.access, FlatMemory.access, hm, hflat]
      exact .some ⟨rfl, h⟩
  | read offset size =>
    by_cases hempty : size = 0
    · subst hempty
      exact .some ⟨rfl, h⟩
    · have hcovers : m.covers offset size = decide (offset + size ≤ flat.data.length) := by
        simp [covers, hempty, h.size]
      simp only [Memory.access, FlatMemory.access, hcovers, decide_eq_true_eq, if_neg hempty]
      by_cases hinside : offset + size ≤ flat.data.length
      · rw [if_pos hinside, if_pos hinside, h.slice_eq hinside]
        exact .some ⟨rfl, h⟩
      · rw [if_neg hinside, if_neg hinside]
        exact .none
  | write offset bytes =>
    simp only [Memory.access, FlatMemory.access, h.size]
    by_cases hinside : offset + bytes.length ≤ flat.data.length
    · rw [if_pos hinside, if_pos hinside]
      exact .some ⟨rfl, h.write hinside⟩
    · rw [if_neg hinside, if_neg hinside]
      exact .none

end Represents

/-! ## All accesses -/

/-- A memory answers like the array that it stands for, whatever is asked of it. Both have the same
answers up to the end, or both have an access outside of their bounds. -/
theorem accessAll_represents {m : Memory} {flat : FlatMemory} (h : m.Represents flat)
    (accesses : List Access) :
    Option.Rel Agrees (accessAll access m accesses)
      (accessAll FlatMemory.access flat accesses) := by
  induction accesses generalizing m flat with
  | nil => exact .some ⟨rfl, h⟩
  | cons first rest ih =>
    have hfirst := h.access first
    simp only [accessAll]
    generalize m.access first = answered, flat.access first = answered' at hfirst
    cases hfirst with
    | none => exact .none
    | @some answered answered' hagree =>
      have hrest := ih hagree.2
      show Option.Rel Agrees (Option.map _ (accessAll access answered.2 rest))
        (Option.map _ (accessAll FlatMemory.access answered'.2 rest))
      generalize accessAll access answered.2 rest = last,
        accessAll FlatMemory.access answered'.2 rest = last' at hrest
      cases hrest with
      | none => exact .none
      | some hagree' => exact .some ⟨congrArg₂ List.cons hagree.1 hagree'.1, hagree'.2⟩

example : (accessAll FlatMemory.access {}
    [.grow 30 2, .write 30 [0xaa, 0xbb], .grow 40 1, .read 30 4]).map (·.1) =
      some [.growth (.ok ()), .written, .growth (.ok ()), .bytes [0xaa, 0xbb, 0x00, 0x00]] :=
  rfl

/-- Accesses can be made in two parts. -/
theorem accessAll_append {σ : Type} {access : σ → Access → Option (Access.Answer × σ)}
    {s s' s'' : σ} {first rest : List Access} {answers answers' : List Access.Answer}
    (hfirst : accessAll access s first = some (answers, s'))
    (hrest : accessAll access s' rest = some (answers', s'')) :
    accessAll access s (first ++ rest) = some (answers ++ answers', s'') := by
  induction first generalizing s answers with
  | nil =>
    cases hfirst
    exact hrest
  | cons a first ih =>
    simp only [List.cons_append, accessAll] at hfirst ⊢
    cases ha : access s a with
    | none =>
      rw [ha] at hfirst
      cases hfirst
    | some answered =>
      rw [ha] at hfirst
      obtain ⟨⟨answers₁, s₁⟩, hinner, heq⟩ := Option.map_eq_some_iff.mp hfirst
      cases heq
      exact Option.map_eq_some_iff.mpr ⟨_, ih hinner, rfl⟩

/-- A memory that covers a range can be read there. -/
theorem exists_accessAll_read {m : Memory} {offset size : Nat} (h : m.covers offset size = true) :
    ∃ answers, accessAll access m [.read offset size] = some (answers, m) := by
  simp only [accessAll, access, if_pos h]
  exact ⟨_, rfl⟩

theorem exists_accessAll_write {m : Memory} {offset : Nat} {bytes : Bytes}
    (h : offset + bytes.length ≤ m.size) :
    ∃ answers, accessAll access m [.write offset bytes] =
      some (answers, m.write offset bytes) := by
  simp only [accessAll, access, if_pos h]
  exact ⟨_, rfl⟩

/-- A range can be priced and made accessible before what else is asked of it. -/
theorem exists_accessAll_of_expanded {m m' : Memory} {offset size : Nat} {rest : List Access}
    (bounded : size = 0 ∨ offset + size ≤ maxSize)
    (h : ∃ answers, accessAll access (m.expanded offset size) rest = some (answers, m')) :
    ∃ answers, accessAll access m (.price offset size :: .grow offset size :: rest) =
      some (answers, m') := by
  obtain ⟨answers, hrest⟩ := h
  refine ⟨.price (m.expansionPrice offset size) :: .growth (.ok ()) :: answers, ?_⟩
  simp only [accessAll, access, expand_eq, if_pos bounded, hrest, Option.map_some]

/-- A range that is not empty lies inside the memory that has grown for it. -/
theorem le_size_expanded_of_ne_zero (m : Memory) {offset size : Nat} (h : size ≠ 0) :
    offset + size ≤ (m.expanded offset size).size := by
  simpa [covers, h] using m.covers_expanded offset size

end Memory

/-! ## Runs -/

/-- What an instruction asks of the memory if it does not fail, and what the end of the run asks if
the instruction ends it with output. An empty range is not asked for. -/
def Instruction.accesses (operands : List Word) : Instruction → List Access
  | memoryLoad =>
    match operands with
    | address :: _ =>
      [.price address.toNat 32, .grow address.toNat 32, .read address.toNat 32]
    | _ => []
  | memoryStore =>
    match operands with
    | address :: value :: _ =>
      [.price address.toNat 32, .grow address.toNat 32, .write address.toNat value.toBytes]
    | _ => []
  | memoryStoreByte =>
    match operands with
    | address :: value :: _ =>
      [.price address.toNat 1, .grow address.toNat 1, .write address.toNat [value.lowByte]]
    | _ => []
  | log _ =>
    match operands with
    | start :: size :: _ =>
      if size.toNat = 0 then []
      else [.price start.toNat size.toNat, .grow start.toNat size.toNat]
    | _ => []
  | halt | revert =>
    match operands with
    | start :: size :: _ =>
      if size.toNat = 0 then []
      else [.price start.toNat size.toNat, .grow start.toNat size.toNat,
        .read start.toNat size.toNat]
    | _ => []
  | _ => []

namespace Machine

variable {m m' : Machine}

theorem RangeGrowth.exists_accessAll {start size : Word} {range : Nat × Nat}
    (h : RangeGrowth m start size range m') {rest : List Access}
    (hrest : m'.memory.covers start.toNat size.toNat = true →
      ∃ answers, accessAll Memory.access m'.memory rest = some (answers, m'.memory)) :
    ∃ answers, accessAll Memory.access m.memory
      (if size.toNat = 0 then []
        else .price start.toNat size.toNat :: .grow start.toNat size.toNat :: rest) =
      some (answers, m'.memory) := by
  cases h with
  | empty zero =>
    rw [if_pos (Word.toNat_of_index? zero)]
    exact ⟨[], rfl⟩
  | range counted pos can =>
    rw [Word.toNat_of_index? counted, Word.toNat_of_index? can.index] at hrest ⊢
    rw [if_neg pos]
    exact Memory.exists_accessAll_of_expanded can.bounded (hrest (m.memory.covers_expanded _ _))

/-- An instruction that does not fail changes the memory by accesses that are inside of its
bounds. -/
theorem Effect.exists_accessAll {f : Frame} {offset : Nat} {i : Instruction} {c : Control}
    (h : Effect f offset i m c m') :
    ∃ answers, accessAll Memory.access m.memory (i.accesses m.stack.items) =
      some (answers, m'.memory) := by
  cases h with
  | memoryLoad operands can room =>
    rw [operands, Instruction.accesses, Word.toNat_of_index? can.index]
    exact Memory.exists_accessAll_of_expanded can.bounded
      (Memory.exists_accessAll_read (m.memory.covers_expanded _ _))
  | @memoryStore _ address value rest start operands can =>
    rw [operands, Instruction.accesses, Word.toNat_of_index? can.index]
    refine Memory.exists_accessAll_of_expanded can.bounded (Memory.exists_accessAll_write ?_)
    rw [value.length_toBytes]
    exact m.memory.le_size_expanded_of_ne_zero (by decide)
  | memoryStoreByte operands can =>
    rw [operands, Instruction.accesses, Word.toNat_of_index? can.index]
    exact Memory.exists_accessAll_of_expanded can.bounded
      (Memory.exists_accessAll_write (m.memory.le_size_expanded_of_ne_zero Nat.one_ne_zero))
  | log mayChange operands _ counted paid grows =>
    rw [operands, Instruction.accesses]
    exact grows.exists_accessAll fun _ => ⟨[], rfl⟩
  | halt operands grows =>
    rw [operands, Instruction.accesses]
    exact grows.exists_accessAll Memory.exists_accessAll_read
  | revert operands grows =>
    rw [operands, Instruction.accesses]
    exact grows.exists_accessAll Memory.exists_accessAll_read
  | _ => exact ⟨[], rfl⟩

end Machine

namespace Frame

variable {f : Frame} {settings : Settings} {gas : Int}

/-- What the instruction at a point asks of the memory. -/
def accessesAt (f : Frame) (p : Point) : List Access :=
  ((f.instructionAt? p).map (·.accesses p.machine.stack.items)).getD []

/-- At every point of a run the memory stands for the array that the accesses of the instructions
before it come to. None of them has been outside of its bounds. -/
theorem memory_of_trail {i : Nat} {p : Point} (h : (f.trail (.start settings gas))[i]? = some p) :
    let past := (f.trail (.start settings gas)).take i
    ∃ answers flat,
      accessAll FlatMemory.access {} (past.flatMap f.accessesAt) = some (answers, flat) ∧
        p.machine.memory.Represents flat := by
  refine history_of_trail (fun past m => ∃ answers flat,
    accessAll FlatMemory.access {} (past.flatMap f.accessesAt) = some (answers, flat) ∧
      m.memory.Represents flat) ⟨[], {}, rfl, Memory.represents_empty⟩ ?_ h
  rintro past q c m ⟨answers, flat, hpast, represents⟩ hresult
  obtain ⟨j, hinstruction, -, effect⟩ := Machine.effect_of_executeAt hresult
  obtain ⟨answers', haccess⟩ := effect.exists_accessAll
  have hagrees := Memory.accessAll_represents represents (j.accesses q.machine.stack.items)
  rw [haccess] at hagrees
  have haccesses : f.accessesAt q = j.accesses q.machine.stack.items := by
    have hi : f.instructionAt? q = some j := hinstruction
    rw [accessesAt, hi]
    rfl
  generalize hflat : accessAll FlatMemory.access flat (j.accesses q.machine.stack.items) = answered
    at hagrees
  cases hagrees with
  | @some _ answered hagree =>
    refine ⟨answers ++ answered.1, answered.2, ?_, hagree.2⟩
    rw [List.flatMap_append, List.flatMap_singleton, haccesses]
    exact Memory.accessAll_append hpast hflat

end Frame

end EvmDispatch
