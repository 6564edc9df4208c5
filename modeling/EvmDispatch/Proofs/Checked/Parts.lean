import EvmDispatch.Proofs.Checked.Word
import EvmDispatch.Proofs.Machine.Immediate

/-!
# Memory, stack and code with checked operations

What the instructions do to the memory and to the stack, and how they are read from the code, with
every number, index and range checked; the names are again those without the checks. As long as the
memory has at most `Memory.maxSize` bytes and the offset of an instruction is far from the greatest
number, nothing here traps. In particular the memory grows whenever its growth has a price.
-/

namespace EvmDispatch

namespace Checked

/-! ## Memory -/

def wordsPrice (words : Nat) : Except Trap Nat := do
  let linear ← unsigned 64 (3 * words)
  let square ← unsigned 64 (words * words)
  unsigned 64 (linear + square / 512)

def expansionPrice (m : Memory) (offset size : Nat) : Except Trap (Except Status Nat) :=
  match Memory.accessEnd offset size with
  | .ok (some stop) =>
    if m.size < stop then do
      let after ← wordsPrice (Memory.wordsFor stop)
      let before ← wordsPrice (Memory.wordsFor m.size)
      return .ok (← minus after before)
    else .ok (.ok 0)
  | .ok none => .ok (.ok 0)
  | .error status => .ok (.error status)

/-- Makes an access possible, for which a price has been found. -/
def expand (m : Memory) (offset size : Nat) : Except Trap Memory :=
  match Memory.accessEnd offset size with
  | .ok (some stop) =>
    if m.size < stop then do
      let size ← unsigned 64 (32 * Memory.wordsFor stop)
      return { m with size }
    else .ok m
  | .ok none => .ok m
  | .error _ => .error .growth

def slice (m : Memory) (offset size : Nat) : Except Trap Bytes :=
  if size = 0 then .ok []
  else do
    let stop ← unsigned 64 (offset + size)
    if offset ≤ stop ∧ stop ≤ m.size then .ok (m.slice offset size) else .error .bounds

def write (m : Memory) (offset : Nat) (bytes : Bytes) : Except Trap Memory := do
  let stop ← unsigned 64 (offset + bytes.length)
  if offset ≤ stop ∧ stop ≤ m.size then
    if bytes.length = stop - offset then .ok (m.write offset bytes) else .error .lengths
  else .error .bounds

/-- The price of the memory does not overflow, as long as the memory is not too large. -/
theorem wordsPrice_eq {words : Nat} (h : words ≤ 2 ^ 27) :
    wordsPrice words = .ok (Memory.wordsPrice words) := by
  have hsquare : words * words ≤ 2 ^ 27 * 2 ^ 27 := Nat.mul_le_mul h h
  rw [wordsPrice, unsigned_eq (by omega), ok_bind, unsigned_eq (by omega), ok_bind,
    unsigned_eq (by omega)]
  rfl

/-- The price of making the memory grow does not overflow, for any range whatever. -/
theorem expansionPrice_eq {m : Memory} (h : m.size ≤ Memory.maxSize) (offset size : Nat) :
    expansionPrice m offset size = .ok (m.expansionPrice offset size) := by
  unfold expansionPrice Memory.expansionPrice Memory.accessEnd
  unfold Memory.maxSize at *
  by_cases hz : size = 0
  · simp only [if_pos hz]
    rfl
  · by_cases hbounded : offset + size ≤ 0x100000000
    · by_cases hgrows : m.size < offset + size
      · have hle : Memory.wordsFor m.size ≤ Memory.wordsFor (offset + size) := by
          unfold Memory.wordsFor
          omega
        have hafter : Memory.wordsFor (offset + size) ≤ 2 ^ 27 := by
          unfold Memory.wordsFor
          omega
        simp only [if_neg hz, if_pos hbounded, if_pos hgrows]
        rw [wordsPrice_eq hafter, ok_bind, wordsPrice_eq (Nat.le_trans hle hafter), ok_bind,
          minus_eq (Memory.wordsPrice_mono hle), ok_bind]
        simp [hgrows, bind, Except.bind, pure, Except.pure]
      · simp only [if_neg hz, if_pos hbounded, if_neg hgrows]
        simp [hgrows, bind, Except.bind, pure, Except.pure]
    · simp only [if_neg hz, if_neg hbounded]
      rfl

/-- A growth that has a price is not refused. -/
theorem expand_eq {offset size : Nat} (m : Memory)
    (bounded : size = 0 ∨ offset + size ≤ Memory.maxSize) :
    expand m offset size = .ok (m.expanded offset size) := by
  unfold expand Memory.accessEnd Memory.expanded
  unfold Memory.maxSize at *
  by_cases hz : size = 0
  · simp [hz]
  · have hbounded : offset + size ≤ 0x100000000 := bounded.resolve_left hz
    by_cases hgrows : m.size < offset + size
    · have hfits : 32 * Memory.wordsFor (offset + size) < 2 ^ 64 := by
        unfold Memory.wordsFor
        omega
      simp only [if_neg hz, if_pos hbounded, if_pos hgrows]
      rw [unsigned_eq hfits, ok_bind, if_pos ⟨hz, hgrows⟩]
      rfl
    · simp [hz, hbounded, hgrows]

theorem slice_eq {m : Memory} {offset size : Nat} (h : m.size ≤ Memory.maxSize)
    (covered : m.covers offset size = true) :
    slice m offset size = .ok (m.slice offset size) := by
  unfold Memory.maxSize at h
  by_cases hz : size = 0
  · subst hz
    rfl
  · have hstop : offset + size ≤ m.size := by simpa [Memory.covers, hz] using covered
    rw [slice, if_neg hz, unsigned_eq (by omega), ok_bind, if_pos ⟨by omega, hstop⟩]

example : slice {} 0 1 = .error .bounds := rfl

theorem write_eq {m : Memory} {offset : Nat} {bytes : Bytes} (h : m.size ≤ Memory.maxSize)
    (hstop : offset + bytes.length ≤ m.size) :
    write m offset bytes = .ok (m.write offset bytes) := by
  unfold Memory.maxSize at h
  rw [write, unsigned_eq (by omega), ok_bind, if_pos ⟨by omega, hstop⟩, if_pos (by omega)]

/-! ## Stack -/

/-- Puts a copy of the `n`-th item from the top on the stack. The topmost item is the one with the
greatest index. -/
def dup (s : Stack) (n : Nat) : Except Trap (Except Status Stack) :=
  if n = 0 ∨ s.depth < n then .ok (.error .stackUnderflow)
  else do return s.push (← item s.items.reverse (← minus s.depth n))

def swap (s : Stack) (n : Nat) : Except Trap (Except Status Stack) :=
  if n = 0 ∨ s.depth ≤ n then .ok (.error .stackUnderflow)
  else do
    let first ← minus s.depth 1
    let second ← minus first n
    let top ← item s.items.reverse first
    let deep ← item s.items.reverse second
    return .ok { s with items := ((s.items.reverse.set first deep).set second top).reverse }

/-- No copy reads outside the stack, however deep its item is. -/
theorem dup_eq (s : Stack) (n : Nat) : dup s n = .ok (s.dup n) := by
  unfold dup Stack.dup Stack.depth
  by_cases hz : n = 0
  · simp [hz]
  · by_cases hn : s.items.length < n
    · have hnone : s.items[n - 1]? = none := List.getElem?_eq_none (by omega)
      simp [hz, hn, hnone]
    · have hindex : s.items.length - 1 - (s.items.length - n) = n - 1 := by omega
      have hitem : s.items.reverse[s.items.length - n]? = some s.items[n - 1] := by
        rw [List.getElem?_reverse (by omega), hindex, List.getElem?_eq_getElem (by omega)]
      rw [if_neg (by omega), if_neg hz, minus_eq (by omega), ok_bind, item_eq hitem, ok_bind,
        List.getElem?_eq_getElem (by omega)]
      rfl

theorem reverse_set {α : Type} (data : List α) {i : Nat} (h : i < data.length) (a : α) :
    (data.set i a).reverse = data.reverse.set (data.length - 1 - i) a := by
  refine List.ext_getElem (by simp) fun k hk _ => ?_
  have hk : k < data.length := by simpa using hk
  rw [List.getElem_reverse, List.getElem_set, List.getElem_set]
  by_cases hi : i = data.length - 1 - k
  · have hposition : data.length - 1 - i = k := by omega
    rw [if_pos (by simpa using hi), if_pos hposition]
  · have hposition : ¬data.length - 1 - i = k := by omega
    rw [if_neg (by simpa using hi), if_neg hposition, List.getElem_reverse]
    simp

/-- Counted from the bottom, the two items that are exchanged are the last one and the one `k + 1`
before it. -/
theorem exchange_reverse (w : Word) {rest : List Word} {k : Nat} (hk : k < rest.length) :
    (w :: rest).reverse[rest.length]? = some w ∧
      (w :: rest).reverse[rest.length - (k + 1)]? = some rest[k] ∧
      (((w :: rest).reverse.set rest.length rest[k]).set (rest.length - (k + 1)) w).reverse =
        rest[k] :: rest.set k w := by
  have hlength : (w :: rest).length = rest.length + 1 := rfl
  have hreverse : (w :: rest).reverse.length = rest.length + 1 := List.length_reverse
  have hfirst : rest.length + 1 - 1 - rest.length = 0 := by omega
  have hsecond : rest.length + 1 - 1 - (rest.length - (k + 1)) = k + 1 := by omega
  refine ⟨?_, ?_, ?_⟩
  · rw [List.getElem?_reverse (by omega), hlength, hfirst, List.getElem?_cons_zero]
  · rw [List.getElem?_reverse (by omega), hlength, hsecond, List.getElem?_cons_succ,
      List.getElem?_eq_getElem hk]
  · rw [reverse_set _ (by rw [List.length_set]; omega), List.length_set, hreverse, hsecond,
      reverse_set _ (by omega), hreverse, hfirst, List.reverse_reverse, List.set_cons_zero,
      List.set_cons_succ]

theorem swap_eq (s : Stack) (n : Nat) : swap s n = .ok (s.swap n) := by
  obtain ⟨items, limit⟩ := s
  unfold swap Stack.swap Stack.depth
  dsimp only
  cases items with
  | nil => simp [Stack.exchange?]
  | cons w rest =>
    have hlength : (w :: rest).length = rest.length + 1 := rfl
    by_cases hz : n = 0
    · simp [Stack.exchange?, hz]
    · obtain ⟨k, rfl⟩ := Nat.exists_eq_succ_of_ne_zero hz
      by_cases hk : rest.length ≤ k
      · have hnone : rest[k]? = none := List.getElem?_eq_none hk
        rw [if_pos (by omega)]
        simp [Stack.exchange?, hnone]
      · have hdeep : rest[k]? = some rest[k] := List.getElem?_eq_getElem (by omega)
        obtain ⟨htop, hbelow, hitems⟩ := exchange_reverse w (Nat.not_le.mp hk)
        rw [if_neg (by omega), minus_eq (by omega), ok_bind, hlength, Nat.add_sub_cancel,
          minus_eq (by omega), ok_bind, item_eq htop, ok_bind, item_eq hbelow, ok_bind, hitems]
        simp [Stack.exchange?, hdeep, pure, Except.pure]

/-! ## Code -/

/-- The position of an opcode among so many from `first` on. -/
def ordinal (opcode : UInt8) (first count : Nat) : Except Trap Nat := do
  let position ← minus opcode.toNat first
  if position < count then .ok position else .error .bounds

/-- The instruction of an opcode. Those of a row are told from each other by their positions. -/
def instruction? (opcode : UInt8) : Except Trap (Option Instruction) :=
  match Instruction.ofByte? opcode with
  | some (.push _) => do return some (.push ((← ordinal opcode 0x60 32) + 1))
  | some (.dup _) => do return some (.dup ((← ordinal opcode 0x80 16) + 1))
  | some (.swap _) => do return some (.swap ((← ordinal opcode 0x90 16) + 1))
  | some (.log _) => do return some (.log (← ordinal opcode 0xa0 5))
  | other => .ok other

def immediateSize (opcode : UInt8) : Except Trap Nat :=
  if 0x60 ≤ opcode ∧ opcode ≤ 0x7f then do return (← minus opcode.toNat 0x60) + 1 else .ok 0

def nextOffset (opcode : UInt8) (offset : Nat) : Except Trap Nat := do
  let behind ← unsigned 64 (offset + 1)
  unsigned 64 (behind + (← immediateSize opcode))

def price (r : Revision) : Instruction → Except Trap Nat
  | .log topics => do unsigned 64 (375 + (← unsigned 64 (375 * topics)))
  | i => .ok (i.price r)

/-- The word of the `size` bytes behind the opcode at an offset, as far as the code has them. -/
def immediate (code : Bytes) (offset size : Nat) : Except Trap Word := do
  let behind ← unsigned 64 (offset + 1)
  let beyond ← unsigned 64 (behind + size)
  let available ← range code (min behind code.length) (min beyond code.length)
  let first ← minus 32 size
  let last ← unsigned 64 (first + available.length)
  ofBytes (← overwrite (List.replicate 32 0) first last available)

/-- The position of an opcode in its row is found without a trap. -/
theorem instruction?_eq (opcode : UInt8) :
    instruction? opcode = .ok (Instruction.ofByte? opcode) := by
  have hall : ∀ n : Fin 256, instruction? (.ofNat n) = .ok (Instruction.ofByte? (.ofNat n)) := by
    decide +kernel
  have hopcode := hall ⟨opcode.toNat, opcode.toNat_lt⟩
  rwa [UInt8.ofNat_toNat] at hopcode

theorem immediateSize_le (opcode : UInt8) : Instruction.immediateSize opcode ≤ 32 := by
  unfold Instruction.immediateSize
  split
  · rename_i hpush
    have hle : opcode.toNat ≤ 0x7f := UInt8.le_iff_toNat_le.mp hpush.2
    omega
  · omega

theorem immediateSize_eq (opcode : UInt8) :
    immediateSize opcode = .ok (Instruction.immediateSize opcode) := by
  unfold immediateSize Instruction.immediateSize
  by_cases hpush : 0x60 ≤ opcode ∧ opcode ≤ 0x7f
  · have hle : 0x60 ≤ opcode.toNat := UInt8.le_iff_toNat_le.mp hpush.1
    have hsize : opcode.toNat - 0x60 + 1 = opcode.toNat - 0x5f := by omega
    rw [if_pos hpush, if_pos hpush, minus_eq hle, ok_bind, hsize]
    rfl
  · rw [if_neg hpush, if_neg hpush]

/-- From an offset that is far from the greatest number the next one can be found. -/
theorem nextOffset_eq {opcode : UInt8} {offset : Nat} (h : offset < 2 ^ 63) :
    nextOffset opcode offset = .ok (offset + 1 + Instruction.immediateSize opcode) := by
  have hsize := immediateSize_le opcode
  rw [nextOffset, unsigned_eq (by omega), ok_bind, immediateSize_eq, ok_bind,
    unsigned_eq (by omega)]

/-- Every instruction of the opcode matrix has a price of 64 bits. -/
theorem price_eq (r : Revision) {opcode : UInt8} {i : Instruction}
    (h : Instruction.ofByte? opcode = some i) : price r i = .ok (i.price r) := by
  cases i with
  | log topics =>
    have htopics : topics ≤ 4 := of_decide_eq_true <|
      Instruction.of_ofByte? (fun | .log topics => decide (topics ≤ 4) | _ => true)
        (by decide +kernel) h
    rw [price, unsigned_eq (by omega), ok_bind, unsigned_eq (by omega)]
    rfl
  | _ => rfl

/-- An immediate operand is read without a trap, even if the code ends inside it. -/
theorem immediate_eq (f : Frame) {offset size : Nat} (hoffset : offset < 2 ^ 64 - 64)
    (hsize : size ≤ 32) :
    immediate f.code.toList offset size = .ok (f.immediateAt offset size) := by
  have hlength : ((f.code.toList.drop (offset + 1)).take size).length ≤ size :=
    List.length_take_le _ _
  have hzeros : 32 - (32 - size + ((f.code.toList.drop (offset + 1)).take size).length) =
      size - ((f.code.toList.drop (offset + 1)).take size).length := by omega
  have hpadded : ((f.code.toList.drop (offset + 1)).take size) ++
      List.replicate (size - ((f.code.toList.drop (offset + 1)).take size).length) 0 =
        readPadded f.code.toList (offset + 1) size := rfl
  have hword : (List.replicate (32 - size) 0 ++
      readPadded f.code.toList (offset + 1) size).length = 32 := by
    rw [List.length_append, List.length_replicate, length_readPadded]
    omega
  rw [immediate, unsigned_eq (by omega), ok_bind, unsigned_eq (by omega), ok_bind, range_min_eq,
    ok_bind, minus_eq hsize, ok_bind, unsigned_eq (by omega), ok_bind,
    overwrite_replicate_eq (by omega) (by omega) (by omega), ok_bind, hzeros, List.append_assoc,
    hpadded, ofBytes_eq hword]
  -- zeros in front do not change the number that the bytes write
  congr 1
  apply Word.toNat_injective
  rw [f.toNat_immediateAt offset hsize, Word.toNat_ofBytes hword, Word.natOfBytes_append,
    Word.natOfBytes_replicate_zero, Nat.zero_mul, Nat.zero_add]

end Checked

end EvmDispatch
