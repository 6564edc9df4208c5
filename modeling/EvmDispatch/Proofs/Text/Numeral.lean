import EvmDispatch.Text.Numeral
import Mathlib.Data.Nat.Digits.Defs

/-!
# What decimal numerals write

A numeral is a nonempty sequence of decimal digits, which may start with zeros, and it writes the
number that its digits stand for by their positions. The readers of numerals take exactly these. A
number is shown by its digits, behind a minus sign if it is negative, and no two numbers are shown
alike.
-/

namespace EvmDispatch

theorem IntegerRange.contains_iff {range : IntegerRange} {n : Int} :
    range.contains n = true ↔ range.low ≤ n ∧ n < range.bound := by
  rw [contains, Bool.and_eq_true, decide_eq_true_iff, decide_eq_true_iff]

namespace Text

/-- That a sequence of characters is a numeral, and which number it writes: the digits stand for
powers of ten, the last one for ones. -/
structure Writes (digits : List Char) (n : Nat) : Prop where
  nonempty : digits ≠ []
  decimal : ∀ c ∈ digits, c.isDigit
  value : n = Nat.ofDigits 10 (digits.reverse.map fun c => c.toNat - '0'.toNat)

/-- That a text is a numeral, which may have a plus sign before it, and which number it writes. -/
def IsUnsigned (text : String) (n : Nat) : Prop :=
  ∃ digits, (text.toList = digits ∨ text.toList = '+' :: digits) ∧ Writes digits n

/-- That a text is a numeral, which may have a sign before it, and which integer it writes. -/
def IsSigned (text : String) (n : Int) : Prop :=
  ∃ digits m, Writes digits m ∧
    ((text.toList = digits ∨ text.toList = '+' :: digits) ∧ n = m ∨
      text.toList = '-' :: digits ∧ n = -m)

theorem foldl_digits (digits : List Char) :
    digits.foldl (fun n c => 10 * n + (c.toNat - 0x30)) 0 =
      Nat.ofDigits 10 (digits.reverse.map fun c => c.toNat - '0'.toNat) := by
  rw [Nat.ofDigits_eq_foldr, List.foldr_map, List.foldr_reverse]
  congr 1
  funext n c
  exact Nat.add_comm _ _

/-- Digits are read as the number that they write. -/
theorem digitsValue?_eq_some_iff {digits : List Char} {n : Nat} :
    digitsValue? digits = some n ↔ Writes digits n := by
  cases digits with
  | nil =>
    constructor
    · intro h
      cases h
    · intro h
      exact absurd rfl h.nonempty
  | cons d rest =>
    simp only [digitsValue?, foldl_digits]
    constructor
    · intro h
      split at h
      · rename_i hdecimal
        cases h
        exact ⟨List.cons_ne_nil _ _, List.all_eq_true.mp hdecimal, rfl⟩
      · cases h
    · rintro ⟨-, hdecimal, rfl⟩
      exact if_pos (List.all_eq_true.mpr hdecimal)

/-- What starts with a sign writes no unsigned number. -/
theorem not_writes_sign {sign : Char} (hsign : ¬ sign.isDigit) (digits : List Char) (n : Nat) :
    ¬ Writes (sign :: digits) n :=
  fun h => hsign (h.decimal sign List.mem_cons_self)

/-- An unsigned numeral of a range is read as the number that it writes. Nothing else is read. -/
theorem unsigned?_eq_some_iff {range : IntegerRange} {text : String} {n : Nat} :
    unsigned? range text = some n ↔ IsUnsigned text n ∧ range.contains n = true := by
  rw [unsigned?, Option.filter_eq_some_iff]
  refine and_congr_left fun _ => ?_
  split
  · rename_i rest htext
    rw [digitsValue?_eq_some_iff]
    constructor
    · intro h
      exact ⟨rest, .inr htext, h⟩
    · rintro ⟨digits, hdigits | hdigits, h⟩
      · rw [htext] at hdigits
        exact absurd (hdigits ▸ h) (not_writes_sign (by decide) rest n)
      · rw [htext] at hdigits
        rwa [(List.cons.inj hdigits).2]
  · rename_i hsign
    rw [digitsValue?_eq_some_iff]
    constructor
    · intro h
      exact ⟨text.toList, .inl rfl, h⟩
    · rintro ⟨digits, hdigits | hdigits, h⟩
      · rwa [hdigits]
      · exact absurd hdigits (hsign digits)

/-! ## Signs -/

section Signs

variable {text : String} {rest : List Char} {n : Int}

theorem isSigned_iff_of_minus (htext : text.toList = '-' :: rest) :
    IsSigned text n ↔ ∃ m : Nat, Writes rest m ∧ -(m : Int) = n := by
  unfold IsSigned
  rw [htext]
  constructor
  · rintro ⟨digits, m, h, ⟨rfl | hdigits, -⟩ | ⟨hdigits, rfl⟩⟩
    · exact absurd h (not_writes_sign (by decide) rest m)
    · exact absurd (List.cons.inj hdigits).1 (by decide)
    · obtain ⟨-, rfl⟩ := List.cons.inj hdigits
      exact ⟨m, h, rfl⟩
  · rintro ⟨m, h, rfl⟩
    exact ⟨rest, m, h, .inr ⟨rfl, rfl⟩⟩

theorem isSigned_iff_of_plus (htext : text.toList = '+' :: rest) :
    IsSigned text n ↔ ∃ m : Nat, Writes rest m ∧ (m : Int) = n := by
  unfold IsSigned
  rw [htext]
  constructor
  · rintro ⟨digits, m, h, ⟨rfl | hdigits, rfl⟩ | ⟨hdigits, -⟩⟩
    · exact absurd h (not_writes_sign (by decide) rest m)
    · obtain ⟨-, rfl⟩ := List.cons.inj hdigits
      exact ⟨m, h, rfl⟩
    · exact absurd (List.cons.inj hdigits).1 (by decide)
  · rintro ⟨m, h, rfl⟩
    exact ⟨rest, m, h, .inl ⟨.inr rfl, rfl⟩⟩

theorem isSigned_iff_of_no_sign (hminus : ∀ rest, text.toList ≠ '-' :: rest)
    (hplus : ∀ rest, text.toList ≠ '+' :: rest) :
    IsSigned text n ↔ ∃ m : Nat, Writes text.toList m ∧ (m : Int) = n := by
  constructor
  · rintro ⟨digits, m, h, ⟨rfl | hdigits, rfl⟩ | ⟨hdigits, -⟩⟩
    · exact ⟨m, h, rfl⟩
    · exact absurd hdigits (hplus digits)
    · exact absurd hdigits (hminus digits)
  · rintro ⟨m, h, rfl⟩
    exact ⟨text.toList, m, h, .inl ⟨.inl rfl, rfl⟩⟩

theorem map_digitsValue?_eq_some_iff {digits : List Char} {f : Int → Int} :
    ((do return ((← digitsValue? digits : Nat) : Int)) : Option Int).map f = some n ↔
      ∃ m : Nat, Writes digits m ∧ f m = n := by
  cases h : digitsValue? digits with
  | none =>
    refine ⟨nofun, ?_⟩
    rintro ⟨m, hm, -⟩
    cases h.symm.trans (digitsValue?_eq_some_iff.mpr hm)
  | some m =>
    have hm := digitsValue?_eq_some_iff.mp h
    refine ⟨fun hn => ⟨m, hm, Option.some.inj hn⟩, ?_⟩
    rintro ⟨m', hm', rfl⟩
    rw [Option.some.inj (h.symm.trans (digitsValue?_eq_some_iff.mpr hm'))]
    rfl

/-- A signed numeral of a range is read as the integer that it writes. Nothing else is read. -/
theorem signed?_eq_some_iff {range : IntegerRange} :
    signed? range text = some n ↔ IsSigned text n ∧ range.contains n = true := by
  rw [signed?, Option.filter_eq_some_iff]
  refine and_congr_left fun _ => ?_
  split
  · rename_i rest htext
    rw [map_digitsValue?_eq_some_iff, isSigned_iff_of_minus htext]
  · rename_i rest htext
    rw [map_digitsValue?_eq_some_iff, isSigned_iff_of_plus htext]
  · rename_i hminus hplus
    rw [map_digitsValue?_eq_some_iff, isSigned_iff_of_no_sign hminus hplus]

end Signs

/-! ## Numbers as they are shown -/

theorem isDigit_of_mem_natText {n : Nat} {c : Char} (h : c ∈ (toString n).toList) :
    c.isDigit := by
  have h : c ∈ n.repr.toList := h
  rw [Nat.toList_repr] at h
  exact Nat.isDigit_of_mem_toDigits (by decide) (by decide) h

/-- Different numbers are printed differently. -/
theorem natText_injective {m n : Nat} (h : toString m = toString n) : m = n := by
  have hdigits : Nat.toDigits 10 m = Nat.toDigits 10 n := by
    rw [← Nat.toList_repr, ← Nat.toList_repr]
    exact congrArg String.toList h
  calc m
    _ = Nat.ofDigitChars 10 (Nat.toDigits 10 m) 0 :=
      (Nat.ofDigitChars_toDigits (by decide) (by decide)).symm
    _ = Nat.ofDigitChars 10 (Nat.toDigits 10 n) 0 := by rw [hdigits]
    _ = n := Nat.ofDigitChars_toDigits (by decide) (by decide)

theorem toList_intText_negSucc (n : Nat) :
    (toString (Int.negSucc n)).toList = '-' :: (toString (n + 1)).toList := by
  have hminus : "-".toList = ['-'] := rfl
  show ("-" ++ toString (n + 1)).toList = _
  rw [String.toList_append, hminus, List.singleton_append]

theorem isDigit_or_minus_of_mem_intText {n : Int} {c : Char} (h : c ∈ (toString n).toList) :
    c.isDigit ∨ c = '-' := by
  cases n with
  | ofNat n => exact .inl (isDigit_of_mem_natText h)
  | negSucc n =>
    rw [toList_intText_negSucc] at h
    rcases List.mem_cons.mp h with rfl | h
    · exact .inr rfl
    · exact .inl (isDigit_of_mem_natText h)

/-- A sign tells a negative number from the others. -/
theorem intText_ofNat_ne (m n : Nat) : toString (Int.ofNat m) ≠ toString (Int.negSucc n) := by
  intro h
  have hminus : '-' ∈ (toString m).toList := by
    show '-' ∈ (toString (Int.ofNat m)).toList
    rw [h, toList_intText_negSucc]
    exact List.mem_cons_self
  exact absurd (isDigit_of_mem_natText hminus) (by decide)

/-- Different integers are printed differently, by their sign or their digits. -/
theorem intText_injective {m n : Int} (h : toString m = toString n) : m = n := by
  cases m with
  | ofNat m =>
    cases n with
    | ofNat n => exact congrArg Int.ofNat (natText_injective h)
    | negSucc n => exact absurd h (intText_ofNat_ne m n)
  | negSucc m =>
    cases n with
    | ofNat n => exact absurd h.symm (intText_ofNat_ne n m)
    | negSucc n =>
      have hdigits : (toString (m + 1)).toList = (toString (n + 1)).toList := by
        have h := congrArg String.toList h
        rw [toList_intText_negSucc, toList_intText_negSucc] at h
        exact (List.cons.inj h).2
      have hsucc : m + 1 = n + 1 := natText_injective (String.toList_injective hdigits)
      rw [Nat.succ.inj hsucc]

end Text

end EvmDispatch
