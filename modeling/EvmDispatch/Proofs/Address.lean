import EvmDispatch.Proofs.Text.Hex

/-!
# Which texts are addresses

An address is written as forty hexadecimal digits between white space, with an optional `0x` in
front of the digits. Each such text is read as the address that its digits write. The reader drops
one `0x` of its own before the reader of bytes drops white space and another one, so that it takes
one more kind of text: `0x` at the very front, and then white space, or a second `0x`, or both, in
front of the digits (`parse_exact`).
-/

namespace EvmDispatch.Address

open Hex (IsDigit Surrounds)
open Text (AllBlank IsHexMark)

/-- That some characters are the digits of an address. -/
structure Digits (digits : List Char) (a : Address) : Prop where
  count : digits.length = 40
  hexadecimal : ∀ c ∈ digits, IsDigit c
  value : Hex.encodeChars a.bytes = digits.map Char.toLower

/-- That a text is an address: its digits between white space, with an optional mark in front of
them. -/
def IsText (cs : List Char) (a : Address) : Prop :=
  ∃ digits, Surrounds cs digits ∧ Digits digits a

/-- That a text has a mark at its very front, and the digits of an address behind white space or a
second mark. -/
def HasStrayMark (cs : List Char) (a : Address) : Prop :=
  ∃ gap mark digits after, AllBlank gap ∧ IsHexMark mark ∧ gap ++ mark ≠ [] ∧ AllBlank after ∧
    cs = ['0', 'x'] ++ gap ++ mark ++ digits ++ after ∧ Digits digits a

variable {cs rest digits : List Char} {a b : Address} {text : String}

theorem digits_encodeChars (a : Address) : Digits (Hex.encodeChars a.bytes) a where
  count := by rw [Hex.length_encodeChars, a.length_eq]
  hexadecimal _ := Hex.isDigit_of_mem_encodeChars
  value := (Hex.map_toLower_encodeChars a.bytes).symm

/-- Reading bytes finds those of an address exactly in the texts of this address. -/
theorem decode_eq_ok_bytes_iff : Hex.decode text = .ok a.bytes ↔ IsText text.toList a := by
  rw [Hex.decode_eq_ok_iff]
  constructor
  · rintro ⟨digits, hsurrounds, hhex, hvalue⟩
    refine ⟨digits, hsurrounds, ?_, hhex, hvalue⟩
    rw [Hex.length_eq_of_encodeChars_eq hvalue, a.length_eq]
  · rintro ⟨digits, hsurrounds, hdigits⟩
    exact ⟨digits, hsurrounds, hdigits.hexadecimal, hdigits.value⟩

theorem ofBytes?_eq_some_iff {bytes : Bytes} : ofBytes? bytes = some a ↔ bytes = a.bytes := by
  constructor
  · intro h
    unfold ofBytes? at h
    split at h
    · rw [← Option.some.inj h]
    · cases h
  · rintro rfl
    exact ofBytes?_bytes a

theorem parse_of_decode_ok {bytes : Bytes}
    (h : Hex.decode (String.ofList (Text.dropHexMark text.toList)) = .ok bytes) :
    parse text = .ok a ↔ ofBytes? bytes = some a := by
  unfold parse
  rw [h]
  cases hbytes : ofBytes? bytes with
  | none => simp only [hbytes, reduceCtorEq]
  | some b => simp only [hbytes, Except.ok.injEq, Option.some.injEq]

/-- A text is read as an address if what follows a mark at its front is the text of the address. -/
theorem parse_eq_ok_iff_dropHexMark :
    parse text = .ok a ↔ IsText (Text.dropHexMark text.toList) a := by
  have hread : parse text = .ok a ↔
      Hex.decode (String.ofList (Text.dropHexMark text.toList)) = .ok a.bytes := by
    cases hdecode : Hex.decode (String.ofList (Text.dropHexMark text.toList)) with
    | error e =>
      rw [parse, hdecode]
      simp only [reduceCtorEq]
    | ok bytes => rw [parse_of_decode_ok hdecode, ofBytes?_eq_some_iff, Except.ok.injEq]
  rw [hread, decode_eq_ok_bytes_iff, String.toList_ofList]

/-- What is no address is given back as it is. -/
theorem parse_eq_ok_or_error (text : String) :
    (∃ a, parse text = .ok a) ∨ parse text = .error ⟨text⟩ := by
  unfold parse
  split
  · split
    · exact .inl ⟨_, rfl⟩
    · exact .inr rfl
  · exact .inr rfl

/-! ## Texts with a mark at the front -/

theorem Digits.isDigit_at (h : Digits digits a) {after : List Char} {i : Nat} {c : Char}
    (hi : i < 40) (hc : (digits ++ after)[i]? = some c) : IsDigit c := by
  rw [List.getElem?_append_left (Nat.lt_of_lt_of_eq hi h.count.symm)] at hc
  exact h.hexadecimal c (List.mem_of_getElem? hc)

/-- The digits of an address do not start with a mark, because `x` is no digit. -/
theorem Digits.not_marked (h : Digits digits a) {after : List Char} :
    digits ++ after ≠ '0' :: 'x' :: rest := by
  intro hmark
  have hx : (digits ++ after)[1]? = some 'x' := by
    rw [hmark]
    rfl
  exact Hex.not_isDigit_x (h.isDigit_at (by omega) hx)

/-- Behind a mark at the very front the digits have to follow at once. -/
theorem isText_marked_iff :
    IsText ('0' :: 'x' :: rest) a ↔
      ∃ digits after, AllBlank after ∧ rest = digits ++ after ∧ Digits digits a := by
  constructor
  · rintro ⟨digits, ⟨before, mark, after, hbefore, hmark, hafter, htext⟩, hdigits⟩
    cases before with
    | cons c before =>
      obtain ⟨rfl, -⟩ := List.cons.inj htext
      exact absurd (hbefore '0' List.mem_cons_self) (by decide)
    | nil =>
      rcases hmark with rfl | rfl
      · exact absurd htext.symm hdigits.not_marked
      · obtain ⟨-, htext⟩ := List.cons.inj htext
        exact ⟨digits, after, hafter, (List.cons.inj htext).2, hdigits⟩
  · rintro ⟨digits, after, hafter, rfl, hdigits⟩
    exact ⟨digits, ⟨[], ['0', 'x'], after, .nil, .inr rfl, hafter, rfl⟩, hdigits⟩

/-- What has a stray mark is not the text of any address. -/
theorem HasStrayMark.not_isText (h : HasStrayMark cs a) : ¬ IsText cs b := by
  obtain ⟨gap, mark, digits, after, hgap, hmark, hne, -, rfl, -⟩ := h
  intro hb
  have hb : IsText ('0' :: 'x' :: (gap ++ mark ++ digits ++ after)) b := hb
  obtain ⟨digits', after', -, htext, hdigits'⟩ := isText_marked_iff.mp hb
  cases gap with
  | cons c gap =>
    have hfirst : (digits' ++ after')[0]? = some c := by
      rw [← htext]
      rfl
    have hvisible : Text.isBlank c = false := (hdigits'.isDigit_at (by omega) hfirst).not_blank
    rw [hgap c List.mem_cons_self] at hvisible
    cases hvisible
  | nil =>
    rcases hmark with rfl | rfl
    · exact absurd rfl hne
    · exact hdigits'.not_marked htext.symm

/-- The reader of addresses takes what is left without a mark at the very front. -/
theorem isText_dropHexMark_iff :
    IsText (Text.dropHexMark cs) a ↔ IsText cs a ∨ HasStrayMark cs a := by
  have hunmarks : Text.Unmarks cs (Text.dropHexMark cs) := Text.dropHexMark_eq_iff.mp rfl
  generalize Text.dropHexMark cs = rest at hunmarks
  rcases hunmarks with rfl | ⟨rfl, hne⟩
  · constructor
    · rintro ⟨digits, ⟨gap, mark, after, hgap, hmark, hafter, rfl⟩, hdigits⟩
      by_cases hnone : gap ++ mark = []
      · rw [hnone, List.nil_append]
        exact .inl (isText_marked_iff.mpr ⟨digits, after, hafter, rfl, hdigits⟩)
      · exact .inr ⟨gap, mark, digits, after, hgap, hmark, hnone, hafter, by simp, hdigits⟩
    · rintro (h | ⟨gap, mark, digits, after, hgap, hmark, -, hafter, htext, hdigits⟩)
      · obtain ⟨digits, after, hafter, rfl, hdigits⟩ := isText_marked_iff.mp h
        exact ⟨digits, ⟨[], [], after, .nil, .inl rfl, hafter, rfl⟩, hdigits⟩
      · refine ⟨digits, ⟨gap, mark, after, hgap, hmark, hafter, ?_⟩, hdigits⟩
        simpa using htext
  · constructor
    · exact .inl
    · rintro (h | ⟨gap, mark, digits, after, -, -, -, -, htext, -⟩)
      · exact h
      · exact absurd htext (by simpa using hne _)

/-- A text is read as an address exactly if it is one, or if it has a mark at its very front and
then white space or a second mark in front of the digits. No text is both. The bytes of the address
are those that the digits write, and what is not read is given back as it is. -/
theorem parse_exact (text : String) :
    (∀ a, parse text = .ok a ↔ IsText text.toList a ∨ HasStrayMark text.toList a) ∧
      (∀ a, HasStrayMark text.toList a → ∀ b, ¬ IsText text.toList b) ∧
      ((∃ a, parse text = .ok a) ∨ parse text = .error ⟨text⟩) := by
  refine ⟨?_, ?_, parse_eq_ok_or_error text⟩
  · intro a
    rw [parse_eq_ok_iff_dropHexMark, isText_dropHexMark_iff]
  · intro a h b
    exact h.not_isText

/-- Two marks are one too many for the text of an address, but are read. -/
theorem parse_two_marks :
    parse "0x0x00000000000000000000000000000000000000ab" = .ok (ofLowByte 0xab) ∧
      ∀ a, ¬ IsText "0x0x00000000000000000000000000000000000000ab".toList a := by
  have htwice : HasStrayMark "0x0x00000000000000000000000000000000000000ab".toList
      (ofLowByte 0xab) :=
    ⟨[], ['0', 'x'], _, [], .nil, .inr rfl, by decide, .nil, by decide, digits_encodeChars _⟩
  exact ⟨by decide, fun a => htwice.not_isText⟩

end EvmDispatch.Address
