import EvmDispatch.Text.Blank
import Mathlib.Data.List.DropRight

/-!
# What is left of a text between white space

Readers of hexadecimal digits drop the white space around them and one mark `0x` in front of them.
Here is what that leaves, said of the text as a whole: `Trims` and `Unmarks` hold for exactly one
rest of each text, which is the one that `trim` and `dropHexMark` compute.
-/

namespace EvmDispatch.Text

/-- A sequence of characters that are all white space. It may be empty. -/
def AllBlank (cs : List Char) : Prop := ∀ c ∈ cs, isBlank c = true

/-- The mark that may stand in front of hexadecimal digits, or its absence. -/
def IsHexMark (mark : List Char) : Prop := mark = [] ∨ mark = ['0', 'x']

/-- That `trimmed` is a text without the white space at its two ends. -/
structure Trims (cs trimmed : List Char) : Prop where
  surrounded : ∃ before after, AllBlank before ∧ AllBlank after ∧ cs = before ++ trimmed ++ after
  first : ∀ c ∈ trimmed.head?, isBlank c = false
  last : ∀ c ∈ trimmed.getLast?, isBlank c = false

/-- That `rest` is a text without the mark in front of it, if there is one. -/
def Unmarks (cs rest : List Char) : Prop :=
  cs = '0' :: 'x' :: rest ∨ cs = rest ∧ ∀ behind, cs ≠ '0' :: 'x' :: behind

theorem AllBlank.nil : AllBlank [] := nofun

/-! ## White space -/

theorem trim_eq_rdropWhile (cs : List Char) :
    trim cs = (cs.dropWhile isBlank).rdropWhile isBlank := rfl

theorem trims_trim (cs : List Char) : Trims cs (trim cs) := by
  rw [trim_eq_rdropWhile]
  refine ⟨?_, ?_, ?_⟩
  · refine ⟨cs.takeWhile isBlank, (cs.dropWhile isBlank).rtakeWhile isBlank,
      fun c => List.mem_takeWhile_imp, fun c => List.mem_rtakeWhile_imp, ?_⟩
    rw [List.append_assoc, List.rdropWhile_append_rtakeWhile, List.takeWhile_append_dropWhile]
  · -- the first character survives the trimming of the end
    intro c hc
    obtain ⟨after, hafter⟩ := List.rdropWhile_prefix isBlank (l := cs.dropWhile isBlank)
    have hfirst : (cs.dropWhile isBlank).head? = some c := by
      rw [← hafter, List.head?_append, Option.mem_def.mp hc, Option.some_or]
    have hblank := List.head?_dropWhile_not isBlank cs
    rwa [hfirst] at hblank
  · intro c hc
    obtain ⟨hne, rfl⟩ := List.mem_getLast?_eq_getLast hc
    exact Bool.eq_false_iff.mpr (List.rdropWhile_last_not isBlank _ hne)

theorem rdropWhile_append_blank {cs after : List Char} (hafter : AllBlank after) :
    (cs ++ after).rdropWhile isBlank = cs.rdropWhile isBlank := by
  have hreverse : ∀ c ∈ after.reverse, isBlank c = true := fun c hc =>
    hafter c (List.mem_reverse.mp hc)
  rw [List.rdropWhile, List.reverse_append, List.dropWhile_append_of_pos hreverse, List.rdropWhile]

/-- There is only one way to trim a text. -/
theorem Trims.trim_eq {cs trimmed : List Char} (h : Trims cs trimmed) : trim cs = trimmed := by
  obtain ⟨⟨before, after, hbefore, hafter, rfl⟩, hfirst, hlast⟩ := h
  rw [trim_eq_rdropWhile, List.append_assoc, List.dropWhile_append_of_pos hbefore]
  cases trimmed with
  | nil =>
    have hnone : after.dropWhile isBlank = [] := List.dropWhile_eq_nil_iff.mpr hafter
    rw [List.nil_append, hnone]
    rfl
  | cons c rest =>
    have hc : isBlank c = false := hfirst c rfl
    have hself : (c :: rest).rdropWhile isBlank = c :: rest := by
      refine List.rdropWhile_eq_self_iff.mpr fun hne => ?_
      exact Bool.eq_false_iff.mp (hlast _ (List.getLast?_eq_some_getLast hne))
    rw [List.cons_append, List.dropWhile_cons_of_neg (Bool.eq_false_iff.mp hc), ← List.cons_append,
      rdropWhile_append_blank hafter, hself]

theorem trim_eq_iff {cs trimmed : List Char} : trim cs = trimmed ↔ Trims cs trimmed :=
  ⟨fun h => h ▸ trims_trim cs, Trims.trim_eq⟩

/-! ## The mark in front of digits -/

theorem dropHexMark_of_ne {cs : List Char} (h : ∀ behind, cs ≠ '0' :: 'x' :: behind) :
    dropHexMark cs = cs := by
  unfold dropHexMark
  split
  · exact absurd rfl (h _)
  · rfl

theorem dropHexMark_eq_iff {cs rest : List Char} : dropHexMark cs = rest ↔ Unmarks cs rest := by
  constructor
  · rintro rfl
    unfold dropHexMark
    split
    · exact .inl rfl
    · rename_i hne
      exact .inr ⟨rfl, hne⟩
  · rintro (rfl | ⟨rfl, hne⟩)
    · rfl
    · exact dropHexMark_of_ne hne

theorem exists_trims (cs : List Char) :
    ∃ trimmed rest, Trims cs trimmed ∧ Unmarks trimmed rest :=
  ⟨trim cs, dropHexMark (trim cs), trim_eq_iff.mp rfl, dropHexMark_eq_iff.mp rfl⟩

end EvmDispatch.Text
