import EvmDispatch.Proofs.Checked.Parts
import EvmDispatch.Proofs.Machine.Contents

/-!
# What a memory has cost when it has grown

A memory grows range by range. Each range is priced first and then made accessible, whatever the
answers are. What has been paid in the end is the price of the memory as it is then, and the memory
is that of the words up to the furthest end of a range. So neither the order of the ranges nor the
way in which they are cut shows in the sum. The calls are stated a second time with every operation
on numbers of 64 bits checked, and with the memory changed in place, so that a call that is refused
could leave it changed; they come to the same.
-/

namespace EvmDispatch

namespace Memory

/-! ## Visits -/

/-- The addresses from an offset on, as many as the size says. -/
structure Range where
  offset : Nat
  size : Nat
deriving DecidableEq, Repr

/-- That a memory can have the range. An empty one counts for nothing wherever it is. -/
def Range.Allowed (range : Range) : Prop := range.size = 0 ∨ range.offset + range.size ≤ maxSize

instance (range : Range) : Decidable range.Allowed :=
  inferInstanceAs (Decidable (range.size = 0 ∨ range.offset + range.size ≤ maxSize))

/-- How far a memory has to reach for the range, if it can have it. -/
def Range.reach (range : Range) : Nat :=
  if range.Allowed then rangeEnd range.offset range.size else 0

/-- The furthest end of some ranges. -/
def furthest (ranges : List Range) : Nat := (ranges.map Range.reach).foldl max 0

/-- A range that has been priced and then made accessible: what the two calls have answered, and the
memory before and after them. -/
structure Visit where
  range : Range
  before : Memory
  price : Except Status Nat
  growth : Except Status Unit
  after : Memory

/-- What has been paid for a visit. -/
def Visit.paid (v : Visit) : Nat :=
  match v.price with
  | .ok price => price
  | .error _ => 0

/-- The visit of a range. -/
def visit (m : Memory) (range : Range) : Visit where
  range := range
  before := m
  price := m.expansionPrice range.offset range.size
  growth := (m.expand range.offset range.size).map fun _ => ()
  after :=
    match m.expand range.offset range.size with
    | .ok m' => m'
    | .error _ => m

/-- The visits of some ranges one after the other, and the memory that is left. -/
def visitAll : Memory → List Range → List Visit × Memory
  | m, [] => ([], m)
  | m, range :: rest =>
    let v := m.visit range
    let visited := visitAll v.after rest
    (v :: visited.1, visited.2)

/-- What holds of the two calls for a range. -/
structure Visit.Regular (v : Visit) : Prop where
  /-- They are refused together, and with the same status. -/
  together : ∀ status, v.price = .error status ↔ v.growth = .error status
  /-- They are refused for one reason. -/
  refused_iff : (∃ status, v.price = .error status) ↔ ¬ v.range.Allowed
  /-- A refused range leaves the memory as it is. -/
  refused : ∀ status, v.growth = .error status → v.after = v.before
  /-- An empty range is free and leaves the memory as it is. -/
  empty : v.range.size = 0 → v.price = .ok 0 ∧ v.growth = .ok () ∧ v.after = v.before

/-! ## One visit -/

section Visit

variable {range : Range}

theorem expanded_of_empty (m : Memory) (h : range.size = 0) :
    m.expanded range.offset range.size = m :=
  if_neg fun hgrows => hgrows.1 h

theorem expanded_of_size_le (m : Memory) (h : range.offset + range.size ≤ m.size) :
    m.expanded range.offset range.size = m :=
  if_neg fun hgrows => Nat.not_lt.mpr h hgrows.2

/-- An allowed range is paid for and then covered. -/
theorem visit_of_allowed (m : Memory) (h : range.Allowed) :
    m.visit range =
      { range, before := m, price := .ok ((m.expanded range.offset range.size).worth - m.worth)
        growth := .ok (), after := m.expanded range.offset range.size } := by
  have hprice : m.expansionPrice range.offset range.size = _ :=
    (m.expansionPrice_eq range.offset range.size).trans (if_pos h)
  have hexpand : m.expand range.offset range.size = _ :=
    (m.expand_eq range.offset range.size).trans (if_pos h)
  rw [visit, hprice, hexpand]
  rfl

theorem visit_of_not_allowed (m : Memory) (h : ¬ range.Allowed) :
    m.visit range =
      { range, before := m, price := .error .outOfGas, growth := .error .outOfGas, after := m } := by
  have hprice : m.expansionPrice range.offset range.size = _ :=
    (m.expansionPrice_eq range.offset range.size).trans (if_neg h)
  have hexpand : m.expand range.offset range.size = _ :=
    (m.expand_eq range.offset range.size).trans (if_neg h)
  rw [visit, hprice, hexpand]
  rfl

end Visit

theorem regular_visit (m : Memory) (range : Range) : (m.visit range).Regular := by
  by_cases h : range.Allowed
  · rw [visit_of_allowed m h]
    refine ⟨fun _ => ⟨nofun, nofun⟩, ⟨nofun, fun hnot => absurd h hnot⟩, fun _ => nofun, ?_⟩
    intro hempty
    rw [expanded_of_empty m hempty, Nat.sub_self]
    exact ⟨rfl, rfl, rfl⟩
  · rw [visit_of_not_allowed m h]
    refine ⟨?_, ⟨fun _ => h, fun _ => ⟨_, rfl⟩⟩, fun _ _ => rfl, ?_⟩
    · intro status
      rw [Except.error.injEq, Except.error.injEq]
    · intro hempty
      exact absurd (.inl hempty) h

/-- What is paid for a visit is what it adds to the worth of the memory. -/
theorem paid_visit (m : Memory) (range : Range) :
    (m.visit range).paid + m.worth = (m.visit range).after.worth := by
  by_cases h : range.Allowed
  · rw [visit_of_allowed m h]
    exact Nat.sub_add_cancel (m.worth_le_expanded range.offset range.size)
  · rw [visit_of_not_allowed m h]
    exact Nat.zero_add _

end Memory

/-! ## Visits with checked operations -/

namespace Checked

open Memory (Range Visit)

/-- The sum of two numbers of 64 bits, if it is one. -/
def sum? (a b : Nat) : Option Nat := if a + b < 2 ^ 64 then some (a + b) else none

/-- The number of words that hold so many bytes, the last of which need not be full. -/
def wordsFor (bytes : Nat) : Except Trap Nat :=
  if 0 < bytes % 32 then unsigned 64 (bytes / 32 + 1) else .ok (bytes / 32)

/-- The end of a range, or none if it is empty. -/
def accessEnd (range : Range) : Except Status (Option Nat) :=
  if range.size = 0 then .ok none
  else
    match sum? range.offset range.size with
    | some stop => if stop ≤ Memory.maxSize then .ok (some stop) else .error .outOfGas
    | none => .error .outOfGas

/-- What it costs to make a range accessible. -/
def growthPrice (m : Memory) (range : Range) : Except Trap (Except Status Nat) :=
  match accessEnd range with
  | .ok (some stop) =>
    if m.size < stop then do
      let after ← wordsPrice (← wordsFor stop)
      let before ← wordsPrice (← wordsFor m.size)
      return .ok (← minus after before)
    else return .ok 0
  | .ok none => return .ok 0
  | .error status => return .error status

/-- Makes a range accessible, and tells the memory that is left in any case. -/
def grow (m : Memory) (range : Range) : Except Trap (Except Status Unit × Memory) :=
  match accessEnd range with
  | .ok (some stop) =>
    if m.size < stop then do
      let size ← unsigned 64 ((← wordsFor stop) * 32)
      return (.ok (), { m with size })
    else return (.ok (), m)
  | .ok none => return (.ok (), m)
  | .error status => return (.error status, m)

def visit (m : Memory) (range : Range) : Except Trap Visit := do
  let price ← growthPrice m range
  let (growth, after) ← grow m range
  return { range, before := m, price, growth, after }

def visitAll : Memory → List Range → Except Trap (List Visit × Memory)
  | m, [] => return ([], m)
  | m, range :: rest => do
    let v ← visit m range
    let (visits, final) ← visitAll v.after rest
    return (v :: visits, final)

theorem wordsFor_eq {bytes : Nat} (h : bytes < 2 ^ 64) :
    wordsFor bytes = .ok (Memory.wordsFor bytes) := by
  unfold wordsFor Memory.wordsFor
  by_cases hrest : 0 < bytes % 32
  · have hwords : bytes / 32 + 1 = (bytes + 31) / 32 := by omega
    rw [if_pos hrest, unsigned_eq (by omega), hwords]
  · have hwords : bytes / 32 = (bytes + 31) / 32 := by omega
    rw [if_neg hrest, hwords]

/-- A range is empty, or ends within the greatest size, or is refused. A sum that is no number of 64
bits is refused like any other beyond the greatest size. -/
theorem accessEnd_cases (range : Range) :
    range.size = 0 ∧ accessEnd range = .ok none ∨
      range.size ≠ 0 ∧ range.offset + range.size ≤ Memory.maxSize ∧
        accessEnd range = .ok (some (range.offset + range.size)) ∨
      ¬ range.Allowed ∧ accessEnd range = .error .outOfGas := by
  unfold accessEnd
  by_cases hz : range.size = 0
  · exact .inl ⟨hz, if_pos hz⟩
  · rw [if_neg hz, sum?]
    by_cases hstop : range.offset + range.size ≤ Memory.maxSize
    · have hfits : range.offset + range.size < 2 ^ 64 := Nat.lt_of_le_of_lt hstop (by decide)
      rw [if_pos hfits]
      exact .inr (.inl ⟨hz, hstop, if_pos hstop⟩)
    · refine .inr (.inr ⟨not_or.mpr ⟨hz, hstop⟩, ?_⟩)
      by_cases hfits : range.offset + range.size < 2 ^ 64
      · rw [if_pos hfits]
        exact if_neg hstop
      · rw [if_neg hfits]

/-- The price of a range is computed without a trap, for a memory that is not too large. -/
theorem growthPrice_eq {m : Memory} (hm : m.size ≤ Memory.maxSize) (range : Range) :
    growthPrice m range = .ok (m.visit range).price := by
  unfold growthPrice
  rcases accessEnd_cases range with ⟨hz, hend⟩ | ⟨hz, hstop, hend⟩ | ⟨hnot, hend⟩
  · rw [Memory.visit_of_allowed m (.inl hz), Memory.expanded_of_empty m hz, Nat.sub_self, hend]
    rfl
  · rw [Memory.visit_of_allowed m (.inr hstop), hend]
    by_cases hgrows : m.size < range.offset + range.size
    · have hle : Memory.wordsFor m.size ≤ Memory.wordsFor (range.offset + range.size) := by
        unfold Memory.wordsFor
        omega
      have hafter : Memory.wordsFor (range.offset + range.size) ≤ 2 ^ 27 := by
        unfold Memory.wordsFor Memory.maxSize at *
        omega
      unfold Memory.maxSize at hm hstop
      simp only [if_pos hgrows, Memory.expanded, if_pos (And.intro hz hgrows)]
      rw [wordsFor_eq (by omega), ok_bind, wordsPrice_eq hafter, ok_bind, wordsFor_eq (by omega),
        ok_bind, wordsPrice_eq (Nat.le_trans hle hafter), ok_bind,
        minus_eq (Memory.wordsPrice_mono hle), ok_bind, Memory.worth, Memory.worth,
        Memory.wordsFor_mul]
      rfl
    · rw [Memory.expanded_of_size_le m (Nat.not_lt.mp hgrows), Nat.sub_self]
      exact if_neg hgrows
  · rw [Memory.visit_of_not_allowed m hnot, hend]
    rfl

theorem grow_eq (m : Memory) (range : Range) :
    grow m range = .ok ((m.visit range).growth, (m.visit range).after) := by
  unfold grow
  rcases accessEnd_cases range with ⟨hz, hend⟩ | ⟨hz, hstop, hend⟩ | ⟨hnot, hend⟩
  · rw [Memory.visit_of_allowed m (.inl hz), Memory.expanded_of_empty m hz, hend]
    rfl
  · rw [Memory.visit_of_allowed m (.inr hstop), hend]
    by_cases hgrows : m.size < range.offset + range.size
    · have hsize : Memory.wordsFor (range.offset + range.size) * 32 < 2 ^ 64 := by
        unfold Memory.wordsFor Memory.maxSize at *
        omega
      unfold Memory.maxSize at hstop
      simp only [if_pos hgrows, Memory.expanded, if_pos (And.intro hz hgrows)]
      rw [wordsFor_eq (by omega), ok_bind, unsigned_eq hsize, ok_bind, Nat.mul_comm]
      rfl
    · rw [Memory.expanded_of_size_le m (Nat.not_lt.mp hgrows)]
      exact if_neg hgrows
  · rw [Memory.visit_of_not_allowed m hnot, hend]
    rfl

/-- A checked visit is a visit, for a memory that is not too large. -/
theorem visit_eq {m : Memory} (hm : m.size ≤ Memory.maxSize) (range : Range) :
    visit m range = .ok (m.visit range) := by
  rw [visit, growthPrice_eq hm, ok_bind, grow_eq, ok_bind]
  rfl

end Checked

namespace Memory

/-! ## Memories in which nothing has been written -/

/-- The memory of the words up to an end, in which nothing has been written. -/
def upTo (stop : Nat) : Memory := { size := 32 * wordsFor stop }

theorem size_upTo_le {stop : Nat} (h : stop ≤ maxSize) : (upTo stop).size ≤ maxSize := by
  show 32 * wordsFor stop ≤ maxSize
  unfold wordsFor maxSize at *
  omega

/-- The memory reaches as far as the furthest end of a range so far. -/
theorem expanded_upTo (stop offset size : Nat) :
    (upTo stop).expanded offset size = upTo (max stop (rangeEnd offset size)) := by
  have hsize := (upTo stop).size_expanded rfl offset size
  -- a memory is told by its size and by what has been written
  have hcells : ((upTo stop).expanded offset size).cells = ∅ := by
    unfold expanded
    split <;> rfl
  cases hm : (upTo stop).expanded offset size with
  | mk grown cells =>
    rw [hm] at hsize hcells
    cases hsize
    cases hcells
    rfl

/-- After a visit the memory reaches as far as the range, if that is further. A range that is
refused does not count. -/
theorem after_visit_upTo (stop : Nat) (range : Range) :
    ((upTo stop).visit range).after = upTo (max stop range.reach) := by
  rw [Range.reach]
  by_cases h : range.Allowed
  · rw [visit_of_allowed _ h, if_pos h, expanded_upTo]
  · rw [visit_of_not_allowed _ h, if_neg h, Nat.max_zero]

/-- A memory never has to reach behind the last byte there can be. -/
theorem Range.reach_le (range : Range) : range.reach ≤ maxSize := by
  unfold Range.reach rangeEnd
  by_cases h : range.Allowed
  · rw [if_pos h]
    by_cases hz : range.size = 0
    · rw [if_pos hz]
      exact Nat.zero_le _
    · rw [if_neg hz]
      exact h.resolve_left hz
  · rw [if_neg h]
    exact Nat.zero_le _

/-! ## All visits -/

theorem map_range_visitAll (m : Memory) (ranges : List Range) :
    (m.visitAll ranges).1.map Visit.range = ranges := by
  induction ranges generalizing m with
  | nil => rfl
  | cons range rest ih =>
    simp only [visitAll, List.map_cons, ih]
    rfl

theorem regular_of_mem_visitAll {m : Memory} {ranges : List Range} {v : Visit}
    (hv : v ∈ (m.visitAll ranges).1) : v.Regular := by
  induction ranges generalizing m with
  | nil => cases hv
  | cons range rest ih =>
    rcases List.mem_cons.mp hv with rfl | hv
    · exact m.regular_visit range
    · exact ih hv

/-- Along the visits what is paid adds up, and what the memory is worth in between cancels out. -/
theorem sum_paid_visitAll (m : Memory) (ranges : List Range) :
    ((m.visitAll ranges).1.map Visit.paid).sum + m.worth = (m.visitAll ranges).2.worth := by
  induction ranges generalizing m with
  | nil => exact Nat.zero_add _
  | cons range rest ih =>
    -- the memory after the first visit is worth what it was before and what has been paid
    have hfirst := m.paid_visit range
    have hrest := ih (m.visit range).after
    simp only [visitAll, List.map_cons, List.sum_cons]
    omega

/-- After all visits the memory reaches as far as the furthest range that counts. -/
theorem visitAll_upTo (stop : Nat) (ranges : List Range) :
    ((upTo stop).visitAll ranges).2 = upTo ((ranges.map Range.reach).foldl max stop) := by
  induction ranges generalizing stop with
  | nil => rfl
  | cons range rest ih =>
    simp only [visitAll, after_visit_upTo, ih]
    rfl

end Memory

/-- No visit traps, in whatever order the ranges come. -/
theorem Checked.visitAll_eq {stop : Nat} (h : stop ≤ Memory.maxSize) (ranges : List Memory.Range) :
    visitAll (.upTo stop) ranges = .ok ((Memory.upTo stop).visitAll ranges) := by
  induction ranges generalizing stop with
  | nil => rfl
  | cons range rest ih =>
    have hrest := ih (Nat.max_le.mpr ⟨h, range.reach_le⟩)
    rw [visitAll, visit_eq (Memory.size_upTo_le h), ok_bind, Memory.after_visit_upTo, hrest]
    simp only [Memory.visitAll, Memory.after_visit_upTo]
    rfl

/-- The price of growing does not depend on the path. Whatever ranges are priced and then made
accessible one after the other, starting from an empty memory: no operation on numbers of 64 bits
overflows, also where a range is refused or empty; a range is refused when it is priced exactly if it
is when the memory grows, and the memory stays as it is; an empty range is free; and what has been
paid in all is the price of the words that the memory has in the end, which are those up to the
furthest end of a range. So ranges that are others, or come in another order, lead to the same memory
for the same sum if they have the same furthest end. -/
theorem Memory.growth_path_independent (ranges : List Range) :
    let visits := (visitAll {} ranges).1
    let final := (visitAll {} ranges).2
    Checked.visitAll {} ranges = .ok (visits, final) ∧
      visits.map Visit.range = ranges ∧
      (∀ v ∈ visits, v.Regular) ∧
      (visits.map Visit.paid).sum = wordsPrice (final.size / 32) ∧
      final = upTo (furthest ranges) ∧
      ∀ others, furthest others = furthest ranges →
        (visitAll {} others).2 = final ∧
          ((visitAll {} others).1.map Visit.paid).sum = (visits.map Visit.paid).sum := by
  have hempty : ({} : Memory) = upTo 0 := rfl
  have hfinal : ∀ ranges, (visitAll {} ranges).2 = upTo (furthest ranges) := by
    intro ranges
    rw [hempty, visitAll_upTo, furthest]
  have hpaid : ∀ ranges, ((visitAll {} ranges).1.map Visit.paid).sum =
      wordsPrice ((visitAll {} ranges).2.size / 32) := by
    intro ranges
    have hsum := sum_paid_visitAll {} ranges
    have hwords : 32 ∣ (visitAll {} ranges).2.size := by
      rw [hfinal]
      exact Nat.dvd_mul_right 32 _
    rw [worth_of_dvd hwords] at hsum
    exact hsum
  intro visits final
  refine ⟨Checked.visitAll_eq (Nat.zero_le _) ranges, map_range_visitAll {} ranges,
    fun v => regular_of_mem_visitAll, hpaid ranges, hfinal ranges, ?_⟩
  intro others hothers
  have hsame : (visitAll {} others).2 = final := by
    rw [hfinal, hothers]
    exact (hfinal ranges).symm
  refine ⟨hsame, ?_⟩
  rw [hpaid, hsame]
  exact (hpaid ranges).symm

/-- A range may be cut in two and be mixed with empty ones and with such as are refused. -/
theorem Memory.growth_path_independent_split :
    furthest [⟨40, 24⟩, ⟨7, 0⟩, ⟨0xffffffffffffffff, 2⟩, ⟨0, 40⟩] = furthest [⟨0, 64⟩] ∧
      (visitAll {} [⟨40, 24⟩, ⟨7, 0⟩, ⟨0xffffffffffffffff, 2⟩, ⟨0, 40⟩]).2 =
        (visitAll {} [⟨0, 64⟩]).2 ∧
      ((visitAll {} [⟨40, 24⟩, ⟨7, 0⟩, ⟨0xffffffffffffffff, 2⟩, ⟨0, 40⟩]).1.map Visit.paid).sum =
        ((visitAll {} [⟨0, 64⟩]).1.map Visit.paid).sum := by
  have hfurthest : furthest [⟨40, 24⟩, ⟨7, 0⟩, ⟨0xffffffffffffffff, 2⟩, ⟨0, 40⟩] =
      furthest [⟨0, 64⟩] := by decide
  have hindependent := growth_path_independent [⟨0, 64⟩]
  exact ⟨hfurthest, hindependent.2.2.2.2.2 _ hfurthest⟩

end EvmDispatch
