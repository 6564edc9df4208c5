import EvmDispatch.Address
import EvmDispatch.Proofs.Text.Blank

/-!
# Which texts are bytes

A text is read as bytes if it is an even number of hexadecimal digits of either case, between white
space and with an optional `0x` in front of them. The bytes are those that are written by the lower
case of the digits. Of any other text the reader says what is wrong with it: that the number of
characters is odd, and only if it is even, which character is the first that is no digit
(`codec_exact`).
-/

namespace EvmDispatch

namespace Hex

open Text (AllBlank IsHexMark Trims Unmarks)

/-- The hexadecimal digits of either case. -/
def IsDigit (c : Char) : Prop := c ∈ "0123456789abcdefABCDEF".toList

instance : DecidablePred IsDigit := fun c =>
  inferInstanceAs (Decidable (c ∈ "0123456789abcdefABCDEF".toList))

/-- That a text is these characters between white space, with an optional mark in front of them. -/
def Surrounds (cs digits : List Char) : Prop :=
  ∃ before mark after, AllBlank before ∧ IsHexMark mark ∧ AllBlank after ∧
    cs = before ++ mark ++ digits ++ after

/-- What a reader of bytes answers who is given some characters without anything around them. -/
structure Reading (digits : List Char) (answer : Except Error Bytes) : Prop where
  accepted : (∃ bytes, answer = .ok bytes) ↔ digits.length % 2 = 0 ∧ ∀ c ∈ digits, IsDigit c
  written {bytes : Bytes} (h : answer = .ok bytes) :
    (encode bytes).toList = digits.map Char.toLower
  odd (h : digits.length % 2 = 1) : answer = .error (.oddLength digits.length)
  invalid (h : digits.length % 2 = 0) (hdigits : ¬ ∀ c ∈ digits, IsDigit c) :
    ∃ before c after, digits = before ++ c :: after ∧ (∀ d ∈ before, IsDigit d) ∧ ¬ IsDigit c ∧
      answer = .error (.invalidDigit c before.length)

/-! ## Single digits -/

theorem toNat_le_toNat {a b : Char} (h : a ≤ b) : a.toNat ≤ b.toNat :=
  UInt32.le_iff_toNat_le.mp (Char.le_def.mp h)

theorem isDigit_ofNat : ∀ n < 0x67,
    0x30 ≤ n ∧ n ≤ 0x39 ∨ 0x41 ≤ n ∧ n ≤ 0x46 ∨ 0x61 ≤ n ∧ n ≤ 0x66 → IsDigit (Char.ofNat n) := by
  decide

/-- A digit has a value, which is written by its lower case. -/
theorem IsDigit.exists_value {c : Char} (h : IsDigit c) :
    ∃ n < 16, digitValue? c = some n ∧ digit n = c.toLower := by
  have hall : "0123456789abcdefABCDEF".toList.all fun c =>
      (digitValue? c).any fun n => n < 16 && digit n == c.toLower := by
    decide
  have hc := List.all_eq_true.mp hall c h
  cases hvalue : digitValue? c with
  | none =>
    rw [hvalue] at hc
    cases hc
  | some n =>
    rw [hvalue, Option.any_some, Bool.and_eq_true, decide_eq_true_iff, beq_iff_eq] at hc
    exact ⟨n, hc.1, rfl, hc.2⟩

theorem isDigit_of_digitValue? {c : Char} {n : Nat} (h : digitValue? c = some n) : IsDigit c := by
  have hrange : 0x30 ≤ c.toNat ∧ c.toNat ≤ 0x39 ∨ 0x41 ≤ c.toNat ∧ c.toNat ≤ 0x46 ∨
      0x61 ≤ c.toNat ∧ c.toNat ≤ 0x66 := by
    unfold digitValue? at h
    split at h
    · rename_i hc
      exact .inl ⟨toNat_le_toNat hc.1, toNat_le_toNat hc.2⟩
    · split at h
      · rename_i hc
        exact .inr (.inr ⟨toNat_le_toNat hc.1, toNat_le_toNat hc.2⟩)
      · split at h
        · rename_i hc
          exact .inr (.inl ⟨toNat_le_toNat hc.1, toNat_le_toNat hc.2⟩)
        · cases h
  rw [← Char.ofNat_toNat c]
  exact isDigit_ofNat c.toNat (by omega) hrange

theorem isDigit_digit : ∀ n < 16, IsDigit (digit n) := by decide

theorem digitValue?_digit : ∀ n < 16, digitValue? (digit n) = some n := by decide

theorem IsDigit.not_blank {c : Char} (h : IsDigit c) : Text.isBlank c = false := by
  have hall : "0123456789abcdefABCDEF".toList.all fun c => !Text.isBlank c := by decide
  have hc := List.all_eq_true.mp hall c h
  rwa [Bool.not_eq_true'] at hc

theorem not_isDigit_x : ¬ IsDigit 'x' := by decide

/-- A digit is read as the value that its lower case writes. -/
theorem IsDigit.exists_nibble {c : Char} (h : IsDigit c) (i : Nat) :
    ∃ n < 16, nibble i c = .ok n ∧ digit n = c.toLower := by
  obtain ⟨n, hn, hvalue, hdigit⟩ := h.exists_value
  refine ⟨n, hn, ?_, hdigit⟩
  rw [nibble, hvalue]

theorem nibble_digit {n : Nat} (h : n < 16) (i : Nat) : nibble i (digit n) = .ok n := by
  rw [nibble, digitValue?_digit n h]

/-- What is no digit is reported with its position. -/
theorem nibble_of_not_isDigit {c : Char} (h : ¬ IsDigit c) (i : Nat) :
    nibble i c = .error (.invalidDigit c i) := by
  unfold nibble
  split
  · rename_i hvalue
    exact absurd (isDigit_of_digitValue? hvalue) h
  · rfl

/-! ## Pairs of digits -/

/-- A byte is written as the two digits that it was read from. -/
theorem digitsOfByte_ofNat {high low : Nat} (hhigh : high < 16) (hlow : low < 16) :
    digitsOfByte (UInt8.ofNat (16 * high + low)) = [digit high, digit low] := by
  have hbyte : (UInt8.ofNat (16 * high + low)).toNat = 16 * high + low := by
    rw [UInt8.toNat_ofNat']
    omega
  have hdiv : (16 * high + low) / 16 = high := by omega
  have hmod : (16 * high + low) % 16 = low := by omega
  rw [digitsOfByte, hbyte, hdiv, hmod]

theorem encodeChars_cons (b : UInt8) (bytes : Bytes) :
    encodeChars (b :: bytes) = digit (b.toNat / 16) :: digit (b.toNat % 16) :: encodeChars bytes :=
  rfl

theorem digit_eq_digitChar : ∀ n < 16, digit n = Nat.digitChar n := by decide

theorem toList_encode (bytes : Bytes) :
    (encode bytes).toList = bytes.flatMap fun b =>
      [Nat.digitChar (b.toNat / 16), Nat.digitChar (b.toNat % 16)] := by
  rw [encode, String.toList_ofList, encodeChars]
  congr 1
  funext b
  have hb := b.toNat_lt
  rw [digitsOfByte, digit_eq_digitChar _ (by omega), digit_eq_digitChar _ (by omega)]

theorem length_encodeChars (bytes : Bytes) : (encodeChars bytes).length = 2 * bytes.length := by
  induction bytes with
  | nil => rfl
  | cons b bytes ih =>
    rw [encodeChars_cons, List.length_cons, List.length_cons, List.length_cons, ih]
    omega

theorem length_eq_of_encodeChars_eq {bytes : Bytes} {digits : List Char}
    (h : encodeChars bytes = digits.map Char.toLower) : digits.length = 2 * bytes.length := by
  rw [← length_encodeChars, h, List.length_map]

theorem isDigit_of_mem_encodeChars {bytes : Bytes} {c : Char} (h : c ∈ encodeChars bytes) :
    IsDigit c := by
  obtain ⟨b, -, hc⟩ := List.mem_flatMap.mp h
  have hb := b.toNat_lt
  rcases List.mem_pair.mp hc with rfl | rfl
  · exact isDigit_digit _ (by omega)
  · exact isDigit_digit _ (by omega)

/-- Two digits that can be read are followed by what comes of the rest. -/
theorem decodePairs_cons_cons {i h l : Nat} {high low : Char} (hhigh : nibble i high = .ok h)
    (hlow : nibble (i + 1) low = .ok l) (rest : List Char) :
    decodePairs i (high :: low :: rest) =
      (UInt8.ofNat (16 * h + l) :: ·) <$> decodePairs (i + 2) rest := by
  rw [decodePairs, hhigh, hlow]
  cases decodePairs (i + 2) rest <;> rfl

/-- Bytes are read back from their digits. -/
theorem decodePairs_encodeChars (i : Nat) (bytes : Bytes) :
    decodePairs i (encodeChars bytes) = .ok bytes := by
  induction bytes generalizing i with
  | nil => rfl
  | cons b bytes ih =>
    have hb := b.toNat_lt
    have hbyte : UInt8.ofNat (16 * (b.toNat / 16) + b.toNat % 16) = b := by
      rw [Nat.div_add_mod, UInt8.ofNat_toNat]
    rw [encodeChars_cons, decodePairs_cons_cons (nibble_digit (by omega) i)
      (nibble_digit (by omega) (i + 1)), ih, hbyte]
    rfl

theorem encodeChars_injective {bytes bytes' : Bytes} (h : encodeChars bytes = encodeChars bytes') :
    bytes = bytes' := by
  have hread := decodePairs_encodeChars 0 bytes
  rw [h, decodePairs_encodeChars] at hread
  exact (Except.ok.inj hread).symm

/-- An even number of digits is read as bytes, which are written by their lower case. -/
theorem decodePairs_of_isDigit : ∀ {cs : List Char} (i : Nat), cs.length % 2 = 0 →
    (∀ c ∈ cs, IsDigit c) →
    ∃ bytes, decodePairs i cs = .ok bytes ∧ encodeChars bytes = cs.map Char.toLower
  | [], _, _, _ => ⟨[], rfl, rfl⟩
  | [_], _, heven, _ => nomatch heven
  | high :: low :: rest, i, heven, hdigits => by
    have hrest : rest.length % 2 = 0 := by
      rw [List.length_cons, List.length_cons] at heven
      omega
    obtain ⟨h, hh, hhigh, hhigh'⟩ := (hdigits high (by simp)).exists_nibble i
    obtain ⟨l, hl, hlow, hlow'⟩ := (hdigits low (by simp)).exists_nibble (i + 1)
    obtain ⟨bytes, hbytes, hencode⟩ := decodePairs_of_isDigit (i + 2) hrest fun c hc =>
      hdigits c (by simp [hc])
    refine ⟨UInt8.ofNat (16 * h + l) :: bytes, ?_, ?_⟩
    · rw [decodePairs_cons_cons hhigh hlow, hbytes]
      rfl
    · rw [encodeChars, List.flatMap_cons, digitsOfByte_ofNat hh hl, ← encodeChars, hencode, hhigh',
        hlow']
      rfl

/-- The first character that is no digit is reported, with its position. -/
theorem decodePairs_of_not_isDigit : ∀ {before : List Char} {c : Char} {after : List Char} (i : Nat),
    (before ++ c :: after).length % 2 = 0 → (∀ d ∈ before, IsDigit d) → ¬ IsDigit c →
    decodePairs i (before ++ c :: after) = .error (.invalidDigit c (i + before.length))
  | [], c, [], _, heven, _, _ => nomatch heven
  | [], c, low :: rest, i, _, _, hc => by
    rw [List.nil_append, decodePairs, nibble_of_not_isDigit hc]
    rfl
  | [high], c, rest, i, _, hbefore, hc => by
    obtain ⟨h, -, hhigh, -⟩ := (hbefore high (by simp)).exists_nibble i
    rw [List.singleton_append, decodePairs, hhigh, nibble_of_not_isDigit hc]
    rfl
  | high :: low :: before, c, after, i, heven, hbefore, hc => by
    have hrest : (before ++ c :: after).length % 2 = 0 := by
      rw [List.cons_append, List.cons_append, List.length_cons, List.length_cons] at heven
      omega
    obtain ⟨h, -, hhigh, -⟩ := (hbefore high (by simp)).exists_nibble i
    obtain ⟨l, -, hlow, -⟩ := (hbefore low (by simp)).exists_nibble (i + 1)
    have ih := decodePairs_of_not_isDigit (i + 2) hrest (fun d hd => hbefore d (by simp [hd])) hc
    have hposition : i + 2 + before.length = i + (high :: low :: before).length := by
      rw [List.length_cons, List.length_cons]
      omega
    rw [List.cons_append, List.cons_append, decodePairs_cons_cons hhigh hlow, ih, hposition]
    rfl

/-! ## The digits of a text -/

theorem exists_first_of_not_all {cs : List Char} (h : ¬ ∀ c ∈ cs, IsDigit c) :
    ∃ before c after, cs = before ++ c :: after ∧ (∀ d ∈ before, IsDigit d) ∧ ¬ IsDigit c := by
  induction cs with
  | nil => exact absurd nofun h
  | cons c rest ih =>
    by_cases hc : IsDigit c
    · have hrest : ¬ ∀ d ∈ rest, IsDigit d := fun hall => h (List.forall_mem_cons.mpr ⟨hc, hall⟩)
      obtain ⟨before, d, after, rfl, hbefore, hd⟩ := ih hrest
      exact ⟨c :: before, d, after, rfl, List.forall_mem_cons.mpr ⟨hc, hbefore⟩, hd⟩
    · exact ⟨[], c, rest, rfl, nofun, hc⟩

theorem Surrounds.of_trims {cs trimmed digits : List Char} (htrims : Trims cs trimmed)
    (hunmarks : Unmarks trimmed digits) : Surrounds cs digits := by
  obtain ⟨before, after, hbefore, hafter, rfl⟩ := htrims.surrounded
  rcases hunmarks with rfl | ⟨rfl, -⟩
  · exact ⟨before, ['0', 'x'], after, hbefore, .inr rfl, hafter, by simp⟩
  · exact ⟨before, [], after, hbefore, .inl rfl, hafter, by simp⟩

/-- Digits are found between white space and behind a mark, since they are neither. -/
theorem Surrounds.trims {cs digits : List Char} (h : Surrounds cs digits)
    (hdigits : ∀ c ∈ digits, IsDigit c) :
    ∃ trimmed, Trims cs trimmed ∧ Unmarks trimmed digits := by
  obtain ⟨before, mark, after, hbefore, hmark, hafter, rfl⟩ := h
  have hvisible : ∀ c ∈ mark ++ digits, Text.isBlank c = false := by
    intro c hc
    rcases List.mem_append.mp hc with hc | hc
    · rcases hmark with rfl | rfl
      · cases hc
      · rcases List.mem_pair.mp hc with rfl | rfl <;> rfl
    · exact (hdigits c hc).not_blank
  refine ⟨mark ++ digits, ⟨⟨before, after, hbefore, hafter, by simp⟩, ?_, ?_⟩, ?_⟩
  · exact fun c hc => hvisible c (List.mem_of_mem_head? hc)
  · exact fun c hc => hvisible c (List.mem_of_mem_getLast? hc)
  · rcases hmark with rfl | rfl
    · refine .inr ⟨rfl, ?_⟩
      rintro behind rfl
      exact not_isDigit_x (hdigits 'x' (by simp))
    · exact .inl rfl

theorem decode_of_trims {text : String} {trimmed digits : List Char}
    (htrims : Trims text.toList trimmed) (hunmarks : Unmarks trimmed digits) :
    decode text = decodeDigits digits := by
  rw [decode, Text.trim_eq_iff.mpr htrims, Text.dropHexMark_eq_iff.mpr hunmarks]

theorem decodeDigits_of_even {digits : List Char} (h : digits.length % 2 = 0) :
    decodeDigits digits = decodePairs 0 digits := by
  rw [decodeDigits, if_neg (by omega)]

theorem decodeDigits_of_odd {digits : List Char} (h : digits.length % 2 = 1) :
    decodeDigits digits = .error (.oddLength digits.length) :=
  if_pos h

/-- What is read of some digits is written by their lower case, and read of nothing else. -/
theorem decodeDigits_eq_ok_iff {digits : List Char} {bytes : Bytes} :
    decodeDigits digits = .ok bytes ↔
      (∀ c ∈ digits, IsDigit c) ∧ encodeChars bytes = digits.map Char.toLower := by
  rcases Nat.mod_two_eq_zero_or_one digits.length with heven | hodd
  · rw [decodeDigits_of_even heven]
    by_cases hdigits : ∀ c ∈ digits, IsDigit c
    · obtain ⟨bytes', hbytes', hencode⟩ := decodePairs_of_isDigit 0 heven hdigits
      rw [hbytes', ← hencode]
      constructor
      · intro h
        exact ⟨hdigits, congrArg encodeChars (Except.ok.inj h).symm⟩
      · rintro ⟨-, h⟩
        rw [encodeChars_injective h]
    · obtain ⟨before, c, after, rfl, hbefore, hc⟩ := exists_first_of_not_all hdigits
      rw [decodePairs_of_not_isDigit 0 heven hbefore hc]
      exact ⟨nofun, fun h => absurd h.1 hdigits⟩
  · rw [decodeDigits_of_odd hodd]
    refine ⟨nofun, ?_⟩
    rintro ⟨-, h⟩
    have hlength := length_eq_of_encodeChars_eq h
    omega

theorem reading_decodeDigits (digits : List Char) : Reading digits (decodeDigits digits) where
  accepted := by
    constructor
    · rintro ⟨bytes, h⟩
      obtain ⟨hdigits, hencode⟩ := decodeDigits_eq_ok_iff.mp h
      have hlength := length_eq_of_encodeChars_eq hencode
      exact ⟨by omega, hdigits⟩
    · rintro ⟨heven, hdigits⟩
      obtain ⟨bytes, hbytes, -⟩ := decodePairs_of_isDigit 0 heven hdigits
      exact ⟨bytes, (decodeDigits_of_even heven).trans hbytes⟩
  written h := by
    rw [encode, String.toList_ofList]
    exact (decodeDigits_eq_ok_iff.mp h).2
  odd := decodeDigits_of_odd
  invalid h hdigits := by
    obtain ⟨before, c, after, rfl, hbefore, hc⟩ := exists_first_of_not_all hdigits
    refine ⟨before, c, after, rfl, hbefore, hc, ?_⟩
    rw [decodeDigits_of_even h, decodePairs_of_not_isDigit 0 h hbefore hc, Nat.zero_add]

/-- Bytes are read from the texts in which their digits stand, of either case. -/
theorem decode_eq_ok_iff {text : String} {bytes : Bytes} :
    decode text = .ok bytes ↔
      ∃ digits, Surrounds text.toList digits ∧ (∀ c ∈ digits, IsDigit c) ∧
        encodeChars bytes = digits.map Char.toLower := by
  constructor
  · intro h
    obtain ⟨trimmed, digits, htrims, hunmarks⟩ := Text.exists_trims text.toList
    rw [decode_of_trims htrims hunmarks] at h
    exact ⟨digits, .of_trims htrims hunmarks, decodeDigits_eq_ok_iff.mp h⟩
  · rintro ⟨digits, hsurrounds, hdigits⟩
    obtain ⟨trimmed, htrims, hunmarks⟩ := hsurrounds.trims hdigits.1
    rw [decode_of_trims htrims hunmarks, decodeDigits_eq_ok_iff]
    exact hdigits

theorem map_toLower_encodeChars (bytes : Bytes) :
    (encodeChars bytes).map Char.toLower = encodeChars bytes := by
  have hread : decodeDigits (encodeChars bytes) = .ok bytes := by
    rw [decodeDigits_of_even (by rw [length_encodeChars]; omega), decodePairs_encodeChars]
  exact (decodeDigits_eq_ok_iff.mp hread).2.symm

/-- Bytes are read back from what they are written as, between white space and behind a mark. -/
theorem decode_of_surrounds {text : String} {bytes : Bytes}
    (h : Surrounds text.toList (encodeChars bytes)) : decode text = .ok bytes :=
  decode_eq_ok_iff.mpr ⟨encodeChars bytes, h, fun _ => isDigit_of_mem_encodeChars,
    (map_toLower_encodeChars bytes).symm⟩

example : decode "0x0x0g" = .error (.invalidDigit 'x' 1) := by decide

end Hex

/-! ## Addresses -/

namespace Address

theorem toList_text (a : Address) : a.text.toList = '0' :: 'x' :: Hex.encodeChars a.bytes := by
  have hmark : "0x".toList = ['0', 'x'] := rfl
  rw [text, String.toList_append, hmark, Hex.encode, String.toList_ofList]
  rfl

theorem ofBytes?_bytes (a : Address) : ofBytes? a.bytes = some a := dif_pos a.length_eq

theorem parse_text (a : Address) : parse a.text = .ok a := by
  have hdecode : Hex.decode (String.ofList (Text.dropHexMark a.text.toList)) = .ok a.bytes := by
    apply Hex.decode_of_surrounds
    rw [toList_text, String.toList_ofList]
    exact ⟨[], [], [], .nil, .inl rfl, .nil, by simp [Text.dropHexMark]⟩
  rw [parse, hdecode]
  simp only [ofBytes?_bytes]

end Address

/-- The codec for hexadecimal digits is exact. A byte is written by its two digits in lower case, the
high one first. Bytes that are written between white space, with an optional mark in front of them,
are read back. Of each text the reader looks at what is left of it without the white space at its
ends and without one mark in front: it takes an even number of digits and nothing else, and the
bytes are those that are written by the lower case of the digits; an odd number of characters is
reported whatever they are; and of an even number the first character that is no digit is reported,
with its position. An address is read back from its written form. -/
theorem Hex.codec_exact :
    (∀ bytes : Bytes, (encode bytes).toList = bytes.flatMap fun b =>
        [Nat.digitChar (b.toNat / 16), Nat.digitChar (b.toNat % 16)]) ∧
      (∀ (bytes : Bytes) (text : String), Surrounds text.toList (encode bytes).toList →
        decode text = .ok bytes) ∧
      (∀ text : String, ∃ trimmed digits, Text.Trims text.toList trimmed ∧
        Text.Unmarks trimmed digits ∧ Reading digits (decode text)) ∧
      ∀ a : Address, Address.parse a.text = .ok a := by
  refine ⟨toList_encode, ?_, ?_, Address.parse_text⟩
  · intro bytes text h
    rw [encode, String.toList_ofList] at h
    exact decode_of_surrounds h
  · intro text
    obtain ⟨trimmed, digits, htrims, hunmarks⟩ := Text.exists_trims text.toList
    refine ⟨trimmed, digits, htrims, hunmarks, ?_⟩
    rw [decode_of_trims htrims hunmarks]
    exact reading_decodeDigits digits

/-- White space need not be that of ASCII. -/
theorem Hex.codec_exact_ideographic_space :
    Surrounds "\u3000 0x00ff\n".toList (encode [0x00, 0xff]).toList ∧
      decode "\u3000 0x00ff\n" = .ok [0x00, 0xff] := by
  have hbefore : Text.AllBlank ['\u3000', ' '] := by
    intro c hc
    rcases List.mem_pair.mp hc with rfl | rfl <;> rfl
  have hafter : Text.AllBlank ['\n'] := by
    intro c hc
    rw [List.mem_singleton.mp hc]
    rfl
  have hsurrounds : Surrounds "\u3000 0x00ff\n".toList (encode [0x00, 0xff]).toList :=
    ⟨['\u3000', ' '], ['0', 'x'], ['\n'], hbefore, .inr rfl, hafter, by decide⟩
  exact ⟨hsurrounds, codec_exact.2.1 _ _ hsurrounds⟩

end EvmDispatch
