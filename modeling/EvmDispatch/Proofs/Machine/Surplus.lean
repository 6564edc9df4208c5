import EvmDispatch.Proofs.Machine.Lockstep
import EvmDispatch.Proofs.Machine.Termination

/-!
# Runs with more gas

Gas is looked at when something is paid, and when the code asks for it. So to an action that does
not ask, and has enough, a surplus makes no difference but that it is left over (`Indifferent`).
Actions put together from such actions are such actions, hence all instructions but one; and a run
of them takes the same steps with more gas, each with the surplus left (`Frame.run_surplus`).
-/

namespace EvmDispatch

namespace Machine

variable {α β : Type} {extra : Nat}

/-- The machine with more gas. -/
def addGas (m : Machine) (extra : Nat) : Machine := { m with gas := m.gas + extra }

/-- A result with more gas left. -/
def withSurplus (extra : Nat) :
    EStateM.Result Status Machine α → EStateM.Result Status Machine α
  | .ok a m => .ok a (m.addGas extra)
  | .error status m => .error status (m.addGas extra)

/-- With more gas an action does the same and leaves so much more, unless it runs out of gas without
it. -/
def Indifferent (extra : Nat) (x : Action α) : Prop :=
  ∀ m, (∃ m', x m = .error .outOfGas m') ∨ x (m.addGas extra) = withSurplus extra (x m)

namespace Indifferent

/-- A change that commutes with more gas is indifferent to it. -/
theorem of_modify {change : Machine → Machine}
    (commutes : ∀ m, change (m.addGas extra) = (change m).addGas extra) :
    Indifferent extra (modify change) := by
  intro m
  refine .inr ?_
  show EStateM.Result.ok () (change (m.addGas extra)) = .ok () ((change m).addGas extra)
  rw [commutes]

/-- What depends on the state, but not on its gas. -/
theorem of_read {g : Machine → Action α} (blind : ∀ m, g (m.addGas extra) = g m)
    (rest : ∀ m, Indifferent extra (g m)) : Indifferent extra (get >>= g) := by
  intro m
  show (∃ m', g m m = .error .outOfGas m') ∨
    g (m.addGas extra) (m.addGas extra) = withSurplus extra (g m m)
  rw [blind]
  exact rest m m

/-- What could be paid can be paid with more gas, and leaves more. -/
theorem of_charge (amount : Nat) : Indifferent extra (charge amount) := by
  intro m
  rw [charge_apply, charge_apply]
  by_cases paid : (amount : Int) ≤ m.gas
  · refine .inr ?_
    have hpaid : (amount : Int) ≤ (m.addGas extra).gas := by
      show (amount : Int) ≤ m.gas + extra
      omega
    have hleft : m.gas + extra - amount = m.gas - amount + extra := by omega
    rw [if_pos paid, if_pos hpaid]
    simp only [withSurplus, addGas, hleft]
  · rw [if_neg paid]
    exact .inl ⟨m, rfl⟩

/-- One action after another is indifferent if both are. -/
theorem bind {x : Action α} {g : α → Action β} (first : Indifferent extra x)
    (rest : ∀ a, Indifferent extra (g a)) : Indifferent extra (x >>= g) := by
  intro m
  simp only [Bind.bind, EStateM.bind]
  rcases first m with ⟨m', hm'⟩ | hfirst
  · rw [hm']
    exact .inl ⟨m', rfl⟩
  · rw [hfirst]
    cases x m with
    | error status m' => exact .inr rfl
    | ok a m' => exact rest a m'

theorem actionLaw (extra : Nat) : ActionLaw fun _ x => Indifferent extra x where
  pure _ := fun _ => .inr rfl
  throw _ := fun _ => .inr rfl
  bind := bind
  read blind rest := of_read (fun m => blind m _) rest
  changeStack _ := of_modify fun _ => rfl
  charge := of_charge
  changeMemory _ := of_modify fun _ => rfl

/-- Everything that is executed is indifferent, except the instruction that asks for the gas. -/
theorem of_executeAt {f : Frame} {offset : Nat}
    (h : Instruction.ofByte? (f.opcodeAt offset) ≠ some (.query .gas)) :
    Indifferent extra (f.executeAt offset) :=
  (actionLaw extra).of_executeAt (fun asks => absurd asks h) fun _ _ _ => of_modify fun _ => rfl

end Indifferent

end Machine

/-! ## Whole runs -/

/-- The point with more gas. -/
def Point.addGas (extra : Nat) (p : Point) : Point :=
  { p with machine := p.machine.addGas extra }

namespace Frame

variable {f : Frame} {settings : Settings} {extra : Nat} {p : Point}

/-- That a surplus makes no difference at a point: its instruction does not ask for the gas, and
does not run out of it. -/
structure IgnoresSurplus (f : Frame) (p : Point) : Prop where
  unasked : f.instructionAt? p ≠ some (.query .gas)
  funded : ∀ m, f.resultAt p ≠ .error .outOfGas m

/-- At a point that ignores it, a surplus is carried through. -/
theorem IgnoresSurplus.resultAt (h : f.IgnoresSurplus p) :
    f.resultAt (p.addGas extra) = Machine.withSurplus extra (f.resultAt p) := by
  rcases Machine.Indifferent.of_executeAt h.unasked p.machine with ⟨m, hm⟩ | hresult
  · exact absurd hm (h.funded m)
  · exact hresult

/-- The next point has the surplus, too. -/
theorem IgnoresSurplus.next? (h : f.IgnoresSurplus p) :
    f.next? (p.addGas extra) = (f.next? p).map (Point.addGas extra) := by
  unfold Frame.next?
  rw [h.resultAt]
  cases f.resultAt p with
  | error status m => rfl
  | ok c m => cases c <;> rfl

/-- The step differs by the surplus, which it tells as gas that is left. -/
theorem IgnoresSurplus.stepAt (h : f.IgnoresSurplus p) :
    f.stepAt settings (p.addGas extra) =
      { f.stepAt settings p with gasLeft := (f.stepAt settings p).gasLeft + extra } := by
  unfold Frame.stepAt
  rw [h.resultAt]
  cases f.resultAt p <;> rfl

/-- A run that does not lose its gas returns the surplus with it. -/
theorem IgnoresSurplus.endsAt (h : f.IgnoresSurplus p) {status : Status} {gasLeft : Int}
    {output : Bytes} (hends : f.EndsAt p status gasLeft output) :
    f.EndsAt (p.addGas extra) status
      (if status = .success ∨ status = .revert then gasLeft + extra else gasLeft) output := by
  cases hends with
  | @finish reverts start size m result =>
    have hresult : f.resultAt (p.addGas extra) =
        .ok (.finish reverts start size) (m.addGas extra) := by
      rw [h.resultAt, result]
      rfl
    have hended : (if reverts then Status.revert else .success) = .success ∨
        (if reverts then Status.revert else .success) = .revert := by
      cases reverts
      · exact .inl rfl
      · exact .inr rfl
    rw [if_pos hended]
    exact .finish hresult
  | @fault _ m result =>
    have hresult : f.resultAt (p.addGas extra) = .error status (m.addGas extra) := by
      rw [h.resultAt, result]
      rfl
    rw [if_neg (not_passed_of_error result)]
    exact .fault hresult

/-- A surplus of gas is left over. Whatever the frame, the settings and the gas are: if a run does
not ask for the gas and does not run out of it, then with more gas it takes the same steps, each
with so much more gas left, and ends alike, and gives the surplus back if it completes or asks to be
undone. So more gas never makes such a run fail. -/
theorem run_surplus (f : Frame) (settings : Settings) (gas : Int) (extra : Nat) (observed : Bool)
    (unasked : ∀ s ∈ (f.run settings gas true).steps,
      Instruction.ofByte? s.opcode ≠ some (.query .gas))
    (funded : (f.run settings gas true).status ≠ .outOfGas) :
    let reply := f.run settings gas observed
    f.run settings (gas + extra) observed =
      { status := reply.status
        gasLeft :=
          if reply.status = .success ∨ reply.status = .revert then reply.gasLeft + extra
          else reply.gasLeft
        output := reply.output
        steps := reply.steps.map fun s => { s with gasLeft := s.gasLeft + extra } } := by
  have hignores : ∀ p ∈ f.trail (.start settings gas), f.IgnoresSurplus p := by
    intro p hp
    refine ⟨instructionAt?_ne_of_steps unasked p hp, fun m hm => ?_⟩
    -- an instruction that ran out of gas would have been the last
    exact funded (run_status_of_error hp hm)
  have htrail : f.trail (.start settings (gas + extra)) =
      (f.trail (.start settings gas)).map (Point.addGas extra) :=
    trail_map fun p hp => (hignores p hp).next?
  intro reply
  obtain ⟨last, hlast, hends⟩ := run_ends f settings gas observed
  have hlast' : (f.trail (.start settings (gas + extra))).getLast? = some (last.addGas extra) := by
    rw [htrail, List.getLast?_map, hlast]
    rfl
  have hends' : f.EndsAt (last.addGas extra) reply.status
      (if reply.status = .success ∨ reply.status = .revert then reply.gasLeft + extra
        else reply.gasLeft) reply.output :=
    (hignores last (List.mem_of_getLast? hlast)).endsAt hends
  have hsteps : (if observed then (f.trail (.start settings (gas + extra))).map
        (f.stepAt settings) else []) =
      reply.steps.map fun s => { s with gasLeft := s.gasLeft + extra } := by
    rw [show reply.steps = _ from run_steps f settings gas observed, htrail]
    cases observed with
    | false => rfl
    | true =>
      simp only [if_true, List.map_map]
      exact List.map_congr_left fun p hp => (hignores p hp).stepAt
  rw [run_eq_of_endsAt hlast' hends', hsteps]

/-- A code that writes a log entry, loads a word from the memory, and asks to be undone with a part
of it. -/
theorem run_surplus_revert :
    let f := Frame.ofMessage .byzantium
      { code := [0x60, 0x05, 0x60, 0x3c, 0xa0, 0x60, 0x21, 0x51, 0x60, 0x04, 0x60, 0x02, 0xfd] } []
    let reply := f.run {} 1000 true
    (∀ s ∈ reply.steps, Instruction.ofByte? s.opcode ≠ some (.query .gas)) ∧
      reply.status ≠ .outOfGas ∧
      f.run {} (1000 + (24 : Nat)) true =
        { status := reply.status
          gasLeft :=
            if reply.status = .success ∨ reply.status = .revert then reply.gasLeft + (24 : Nat)
            else reply.gasLeft
          output := reply.output
          steps := reply.steps.map fun s => { s with gasLeft := s.gasLeft + (24 : Nat) } } := by
  intro f reply
  have hunasked : (reply.steps.all fun s =>
      Instruction.ofByte? s.opcode ≠ some (.query .gas)) = true :=
    of_runWithin (n := 8) (fun reply => reply.steps.all fun s =>
      Instruction.ofByte? s.opcode ≠ some (.query .gas)) (by decide +kernel)
  have hstatus : (reply.status == .revert) = true :=
    of_runWithin (n := 8) (fun reply => reply.status == .revert) (by decide +kernel)
  have unasked : ∀ s ∈ reply.steps, Instruction.ofByte? s.opcode ≠ some (.query .gas) := by
    simpa using hunasked
  have funded : reply.status ≠ .outOfGas := by
    rw [eq_of_beq hstatus]
    nofun
  exact ⟨unasked, funded, run_surplus f {} 1000 24 true unasked funded⟩

end Frame

end EvmDispatch
