import EvmDispatch.Proofs.Text.Numeral
import EvmDispatch.Proofs.Vm.Interchange
import Mathlib.Data.List.Induction

/-!
# The options of the machine

An engine takes two options. What it answers to one tells whether it has been set, and what an
engine has been configured to is a matter of the accepted options only: of those that limit the
stack, the last one counts.
-/

namespace EvmDispatch

namespace VmOption

/-- That an option asks for a limit of the stack that there can be. -/
def LimitsStack (o : VmOption) (limit : Nat) : Prop :=
  o.name = "stack-limit" ∧ Text.IsUnsigned o.value limit ∧ 1 ≤ limit ∧ limit ≤ 1024

/-- That an option says whether steps tell what has been pushed. -/
def TellsPushed (o : VmOption) (told : Bool) : Prop :=
  o.name = "trace-pushed" ∧ o.value = if told then "true" else "false"

/-- What some options come to that ask for a number: the number of the last option that asks for
one, and the initial one if none does. -/
def LastAsked (Asks : VmOption → Nat → Prop) (initial : Nat) (options : List VmOption) (n : Nat) :
    Prop :=
  (∃ before o after, options = before ++ o :: after ∧ Asks o n ∧ ∀ o' ∈ after, ∀ n', ¬ Asks o' n') ∨
    n = initial ∧ ∀ o ∈ options, ∀ n', ¬ Asks o n'

/-- The limit that some options come to: that of the last option that asks for one, and the greatest
one if none does. -/
def LastLimit : List VmOption → Nat → Prop := LastAsked LimitsStack 1024

section LastAsked

variable {Asks : VmOption → Nat → Prop} {initial : Nat}

theorem LastAsked.nil : LastAsked Asks initial [] initial := .inr ⟨rfl, nofun⟩

/-- A request replaces what has been asked for before. -/
theorem LastAsked.set {o : VmOption} {n : Nat} (options : List VmOption) (h : Asks o n) :
    LastAsked Asks initial (options ++ [o]) n :=
  .inl ⟨options, o, [], rfl, h, nofun⟩

/-- An option that asks for nothing leaves it. -/
theorem LastAsked.skip {options : List VmOption} {o : VmOption} {n : Nat}
    (h : LastAsked Asks initial options n) (ho : ∀ n', ¬ Asks o n') :
    LastAsked Asks initial (options ++ [o]) n := by
  rcases h with ⟨before, o₁, after, rfl, ho₁, hafter⟩ | ⟨rfl, hnone⟩
  · refine .inl ⟨before, o₁, after ++ [o], by simp, ho₁, ?_⟩
    intro o' ho'
    rcases List.mem_append.mp ho' with ho' | ho'
    · exact hafter o' ho'
    · obtain rfl := List.mem_singleton.mp ho'
      exact ho
  · refine .inr ⟨rfl, ?_⟩
    intro o' ho'
    rcases List.mem_append.mp ho' with ho' | ho'
    · exact hnone o' ho'
    · obtain rfl := List.mem_singleton.mp ho'
      exact ho

end LastAsked

/-- The limit of the stack is always between 1 and 1024, whatever options there are. -/
theorem LastLimit.bounds {options : List VmOption} {limit : Nat} (h : LastLimit options limit) :
    1 ≤ limit ∧ limit ≤ 1024 := by
  rcases h with ⟨_, _, _, _, ho, _⟩ | ⟨rfl, _⟩
  · exact ho.2.2
  · exact ⟨by omega, Nat.le_refl _⟩

end VmOption

namespace Settings

/-- A limit is written as an unsigned number between 1 and 1024. -/
theorem stackLimit?_eq_some_iff {value : String} {limit : Nat} :
    stackLimit? value = some limit ↔
      Text.IsUnsigned value limit ∧ 1 ≤ limit ∧ limit ≤ 1024 := by
  rw [stackLimit?, Option.filter_eq_some_iff, Text.unsigned64?, Text.unsigned?_eq_some_iff,
    decide_eq_true_iff, Stack.maxLimit]
  constructor
  · rintro ⟨⟨hvalue, -⟩, hlimit⟩
    exact ⟨hvalue, hlimit⟩
  · rintro ⟨hvalue, hlimit⟩
    refine ⟨⟨hvalue, ?_⟩, hlimit⟩
    -- the range of the numeral is wider than that of the limits
    have hlow : (0 : Int) ≤ limit := Int.natCast_nonneg limit
    have hbound : (limit : Int) < 0x10000000000000000 := by omega
    exact IntegerRange.contains_iff.mpr ⟨hlow, hbound⟩

example : stackLimit? "+0012" = some 12 := by decide

example : stackLimit? "1025" = none := by decide

/-- A flag is written in one of two ways, in small letters and without white space. -/
theorem flag?_eq_some_iff {value : String} {told : Bool} :
    flag? value = some told ↔ value = if told then "true" else "false" := by
  unfold flag?
  by_cases htrue : value = "true"
  · subst htrue
    cases told <;> decide
  · by_cases hfalse : value = "false"
    · subst hfalse
      cases told <;> decide
    · cases told <;> simp [htrue, hfalse]

/-- What an option does to the settings: it limits the stack, says whether steps tell what has been
pushed, or is not accepted and does nothing. -/
theorem set_cases (s : Settings) (o : VmOption) :
    (∃ limit, o.LimitsStack limit ∧
        s.set o.name o.value = (.accepted, { s with stackLimit := limit })) ∨
      (∃ told, o.TellsPushed told ∧ o.name ≠ "stack-limit" ∧
        s.set o.name o.value = (.accepted, { s with tracePushed := told })) ∨
      (∀ limit, ¬ o.LimitsStack limit) ∧ (∀ told, ¬ o.TellsPushed told) ∧
        ∃ answer, answer ≠ .accepted ∧ s.set o.name o.value = (answer, s) := by
  obtain ⟨name, value⟩ := o
  by_cases hlimit : name = "stack-limit"
  · subst hlimit
    cases hvalue : stackLimit? value with
    | some limit =>
      exact .inl ⟨limit, ⟨rfl, stackLimit?_eq_some_iff.mp hvalue⟩, by simp [set, hvalue]⟩
    | none =>
      refine .inr (.inr ⟨?_, ?_, .invalidValue, by decide, by simp [set, hvalue]⟩)
      · rintro limit ⟨-, h⟩
        cases hvalue.symm.trans (stackLimit?_eq_some_iff.mpr h)
      · rintro told ⟨h, -⟩
        have h : "stack-limit" = "trace-pushed" := h
        exact absurd h (by decide)
  · have hlimits : ∀ limit, ¬ VmOption.LimitsStack ⟨name, value⟩ limit := fun limit h => hlimit h.1
    by_cases hflag : name = "trace-pushed"
    · subst hflag
      cases hvalue : flag? value with
      | some told =>
        exact .inr (.inl ⟨told, ⟨rfl, flag?_eq_some_iff.mp hvalue⟩, hlimit, by simp [set, hvalue]⟩)
      | none =>
        refine .inr (.inr ⟨hlimits, ?_, .invalidValue, by decide, by simp [set, hvalue]⟩)
        rintro told ⟨-, h⟩
        cases hvalue.symm.trans (flag?_eq_some_iff.mpr h)
    · refine .inr (.inr ⟨hlimits, ?_, .invalidName, by decide, by simp [set, hlimit, hflag]⟩)
      rintro told ⟨h, -⟩
      exact hflag h

end Settings

namespace Engine

theorem set_eq (e : Engine) (o : VmOption) :
    e.set o.name o.value =
      ((e.settings.set o.name o.value).1,
        { e with settings := (e.settings.set o.name o.value).2 }) :=
  rfl

/-- An option is accepted if it limits the stack or says whether steps tell what has been pushed,
and one that is not accepted changes nothing. -/
theorem set_answer (e : Engine) (o : VmOption) :
    ((e.set o.name o.value).1 = .accepted ↔
        (∃ limit, o.LimitsStack limit) ∨ ∃ told, o.TellsPushed told) ∧
      ((e.set o.name o.value).1 ≠ .accepted → (e.set o.name o.value).2 = e) := by
  rw [set_eq]
  rcases e.settings.set_cases o with
    ⟨limit, ho, hset⟩ | ⟨told, ho, -, hset⟩ | ⟨hlimit, htold, answer, hrefused, hset⟩
  · rw [hset]
    exact ⟨⟨fun _ => .inl ⟨limit, ho⟩, fun _ => rfl⟩, fun h => absurd rfl h⟩
  · rw [hset]
    exact ⟨⟨fun _ => .inr ⟨told, ho⟩, fun _ => rfl⟩, fun h => absurd rfl h⟩
  · rw [hset]
    refine ⟨⟨fun h => absurd h hrefused, ?_⟩, fun _ => rfl⟩
    rintro (⟨limit, h⟩ | ⟨told, h⟩)
    · exact absurd h (hlimit limit)
    · exact absurd h (htold told)

theorem configured_append (options : List VmOption) (o : VmOption) :
    configured (options ++ [o]) = ((configured options).set o.name o.value).2 := by
  rw [configured, List.foldl_append]
  rfl

/-- The limit of the stack is that of the last option that was accepted as one. -/
theorem lastLimit_configured (options : List VmOption) :
    VmOption.LastLimit options (configured options).settings.stackLimit := by
  induction options using List.reverseRecOn with
  | nil => exact .nil
  | append_singleton options o ih =>
    rw [configured_append, set_eq]
    rcases (configured options).settings.set_cases o with
      ⟨limit, ho, hset⟩ | ⟨told, ho, hname, hset⟩ | ⟨hlimit, -, answer, -, hset⟩
    · rw [hset]
      exact .set options ho
    · rw [hset]
      exact ih.skip fun n h => hname h.1
    · rw [hset]
      exact ih.skip hlimit

end Engine

end EvmDispatch
