import EvmDispatch.Backend.Echo
import EvmDispatch.Proofs.Backend.Options

/-!
# What the echo backend charges

The echo backend has a price for each byte of the code, which is the one that the last accepted
option asks for. A call that pays for all its bytes gets the code back and keeps the rest of the
gas, and a call that cannot pay gets nothing. The charge is bounded by the largest amount of gas
that there can be. So the only call that cannot pay and yet is answered is one with exactly that
amount, which is charged all that it has (`charges_per_byte`).
-/

namespace EvmDispatch.Echo

/-! ## The price -/

/-- That an option asks for a price of the bytes that there can be. -/
def AsksPrice (o : VmOption) (price : Nat) : Prop :=
  o.name = "byte-cost" ∧ Text.IsSigned o.value price ∧ price ≤ maxSigned64

/-- A price per byte is written as a signed number, is not negative and has 64 bits. -/
theorem byteCost?_eq_some_iff {value : String} {price : Nat} :
    byteCost? value = some price ↔ Text.IsSigned value price ∧ price ≤ maxSigned64 := by
  simp only [byteCost?, Option.map_eq_some_iff, Option.filter_eq_some_iff, Text.signed64?,
    Text.signed?_eq_some_iff, IntegerRange.contains_iff, IntegerRange.signed64, maxSigned64,
    decide_eq_true_iff]
  constructor
  · rintro ⟨n, ⟨⟨hvalue, -, hbound⟩, hn⟩, rfl⟩
    rw [Int.toNat_of_nonneg hn]
    exact ⟨hvalue, by omega⟩
  · rintro ⟨hvalue, hprice⟩
    exact ⟨price, ⟨⟨hvalue, by omega, by omega⟩, by omega⟩, Int.toNat_natCast price⟩

/-- What an option does to the price: it sets the price, or is not accepted and does nothing. -/
theorem setOption_cases (e : Engine) (o : VmOption) :
    (∃ price, AsksPrice o price ∧
        setOption e o.name o.value = (.accepted, { e with byteCost := price })) ∨
      (∀ price, ¬ AsksPrice o price) ∧
        ∃ answer, answer ≠ .accepted ∧ setOption e o.name o.value = (answer, e) := by
  obtain ⟨name, value⟩ := o
  by_cases hname : name = "byte-cost"
  · subst hname
    cases hvalue : byteCost? value with
    | some price =>
      exact .inl ⟨price, ⟨rfl, byteCost?_eq_some_iff.mp hvalue⟩, by simp [setOption, hvalue]⟩
    | none =>
      refine .inr ⟨?_, .invalidValue, by decide, by simp [setOption, hvalue]⟩
      rintro price ⟨-, h⟩
      cases hvalue.symm.trans (byteCost?_eq_some_iff.mpr h)
  · exact .inr ⟨fun price h => hname h.1, .invalidName, by decide, by simp [setOption, hname]⟩

/-- An option is accepted if and only if it asks for a price. -/
theorem setOption_accepted_iff (e : Engine) (o : VmOption) :
    (setOption e o.name o.value).1 = .accepted ↔ ∃ price, AsksPrice o price := by
  rcases setOption_cases e o with ⟨price, ho, hset⟩ | ⟨hnone, answer, hrefused, hset⟩
  · rw [hset]
    exact ⟨fun _ => ⟨price, ho⟩, fun _ => rfl⟩
  · rw [hset]
    exact ⟨fun h => absurd h hrefused, fun ⟨price, h⟩ => absurd h (hnone price)⟩

theorem configure_append (options : List VmOption) (o : VmOption) :
    backend.configure backend.start (options ++ [o]) =
      (setOption (backend.configure backend.start options) o.name o.value).2 := by
  rw [Backend.configure, List.foldl_append]
  rfl

/-- The price is that of the last option that was accepted, and one if there was none. -/
theorem lastAsked_configure (options : List VmOption) :
    VmOption.LastAsked AsksPrice 1 options
      (Engine.byteCost (backend.configure backend.start options)) := by
  induction options using List.reverseRecOn with
  | nil => exact .nil
  | append_singleton options o ih =>
    rw [configure_append]
    rcases setOption_cases (backend.configure backend.start options) o with
      ⟨price, ho, hset⟩ | ⟨hnone, answer, -, hset⟩
    · rw [hset]
      exact .set options ho
    · rw [hset]
      exact ih.skip hnone

/-! ## The charge -/

variable {e : Engine} {message : Message}

/-- A call that can pay for its code is answered with the code and the rest of the gas. -/
theorem execute_of_cost_le (h : (cost e message.code : Int) ≤ message.gas) :
    (execute e message).1 =
      { status := .success, gasLeft := message.gas - cost e message.code
        output := message.code } := by
  rw [execute, if_neg (Int.not_lt.mpr h)]
  rfl

/-- A call that cannot pay for its code runs out of gas, and gets nothing. -/
theorem execute_of_lt_cost (h : message.gas < cost e message.code) :
    (execute e message).1 = { status := .outOfGas } := by
  rw [execute, if_pos h]

/-- However long the code is, the cost is a signed number of 64 bits. -/
theorem cost_le_max (e : Engine) (code : Bytes) : cost e code ≤ maxSigned64 := Nat.min_le_right _ _

theorem cost_le_owed (e : Engine) (code : Bytes) : cost e code ≤ code.length * e.byteCost :=
  Nat.min_le_left _ _

/-- The charge is what the bytes cost, unless this is more than all the gas that there can be. -/
theorem cost_eq_owed_or_max (e : Engine) (code : Bytes) :
    cost e code = code.length * e.byteCost ∨ cost e code = maxSigned64 := by
  unfold cost
  omega

/-- What the echo backend charges. After any sequence of options the price of a byte is that of the
last one that was accepted, which asks for it, and one if none was. A call whose gas pays for all
bytes at this price returns the code and the rest of the gas. A call whose gas does not, returns
nothing, unless its gas is the largest amount that there can be: then it is charged all of it, and
returns the code. -/
theorem charges_per_byte (options : List VmOption) (r : Revision) (message : Message)
    (observed : Bool) (hgas : IntegerRange.signed64.contains message.gas = true) :
    let e : Engine := backend.configure backend.start options
    let owed : Int := message.code.length * e.byteCost
    let reply := (backend.execute e r message observed).1
    VmOption.LastAsked AsksPrice 1 options e.byteCost ∧
      (∀ o : VmOption, (setOption e o.name o.value).1 = .accepted ↔ ∃ price, AsksPrice o price) ∧
      (owed ≤ message.gas →
        reply = { status := .success, gasLeft := message.gas - owed, output := message.code }) ∧
      (message.gas < owed → message.gas < maxSigned64 →
        reply = { status := .outOfGas, gasLeft := 0, output := [] }) ∧
      (message.gas < owed → message.gas = maxSigned64 →
        reply = { status := .success, gasLeft := 0, output := message.code }) := by
  intro e owed reply
  have hmax : message.gas ≤ maxSigned64 := by
    have hbound : message.gas < 0x8000000000000000 := (IntegerRange.contains_iff.mp hgas).2
    unfold maxSigned64
    omega
  have howed : owed = ((message.code.length * e.byteCost : Nat) : Int) := by
    rw [Nat.cast_mul]
  have hle := cost_le_owed e message.code
  have hbound := cost_le_max e message.code
  have hcost := cost_eq_owed_or_max e message.code
  refine ⟨lastAsked_configure options, setOption_accepted_iff e, ?_, ?_, ?_⟩
  · intro hpays
    have heq : (cost e message.code : Int) = owed := by omega
    have hreply : reply = _ := execute_of_cost_le (by omega)
    rw [hreply, heq]
  · intro hshort hless
    exact execute_of_lt_cost (by omega)
  · intro hshort hall
    have heq : (cost e message.code : Int) = message.gas := by omega
    have hreply : reply = _ := execute_of_cost_le (by omega)
    rw [hreply, heq, Int.sub_self]

/-- A byte at the highest price can be paid by the largest amount of gas. -/
theorem charges_per_byte_max :
    IntegerRange.signed64.contains maxSigned64 = true ∧
      (backend.execute
          (backend.configure backend.start
            [⟨"byte-cost", "9223372036854775807"⟩, ⟨"byte-cost", "-1"⟩, ⟨"speed", "1"⟩])
          .frontier { gas := maxSigned64, code := [0xab] } false).1 =
        { status := .success, gasLeft := 0, output := [0xab] } := by
  refine ⟨by decide, ?_⟩
  have hcharges := charges_per_byte
    [⟨"byte-cost", "9223372036854775807"⟩, ⟨"byte-cost", "-1"⟩, ⟨"speed", "1"⟩] .frontier
    { gas := maxSigned64, code := [0xab] } false (by decide)
  exact hcharges.2.2.1 (by decide)

/-- Two bytes at the highest price cost more than there can be gas, but the largest amount of gas is
enough for them. -/
theorem two_bytes_underpaid :
    Engine.byteCost (backend.configure backend.start [⟨"byte-cost", "9223372036854775807"⟩]) =
        maxSigned64 ∧
      (maxSigned64 : Int) < ([0x01, 0x02] : Bytes).length * maxSigned64 ∧
      (backend.execute
          (backend.configure backend.start [⟨"byte-cost", "9223372036854775807"⟩])
          .frontier { gas := maxSigned64, code := [0x01, 0x02] } false).1 =
        { status := .success, gasLeft := 0, output := [0x01, 0x02] } := by
  decide

end EvmDispatch.Echo
