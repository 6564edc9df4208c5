import EvmDispatch.Proofs.Machine.Lockstep
import EvmDispatch.Proofs.Machine.Untouched

/-!
# Frames that must not change the state

An instruction that changes the state looks whether it may once its price is paid, and before
anything else. All other instructions do the same in either frame. So a frame that must not change
the state runs as one that may, up to the first such instruction that is paid for, and fails there
(`Frame.run_static`).
-/

namespace EvmDispatch

namespace Instruction

/-- Whether the instruction changes more than the frame that executes it: it stores a word or writes
a log entry. -/
def changesState : Instruction → Bool
  | storageStore => true
  | log _ => true
  | _ => false

/-- Every revision defines the instructions that change the state. -/
theorem introducedIn_of_changesState {i : Instruction} (h : i.changesState) :
    i.introducedIn = .frontier := by
  cases i <;> first | rfl | cases h

end Instruction

namespace Machine

/-- In a static frame an instruction that changes the state fails before it takes an operand. -/
theorem perform_of_isStatic {f : Frame} (static : f.isStatic) {i : Instruction}
    (h : i.changesState) (offset : Nat) (m : Machine) :
    perform f offset i m = .error .staticModeViolation m := by
  have hrefused : f.requireMutable m = .error .staticModeViolation m := by
    rw [Frame.requireMutable, if_pos static]
    rfl
  cases i with
  | storageStore => simp only [perform, bind, EStateM.bind, hrefused]
  | log topics => simp only [perform, bind, EStateM.bind, hrefused]
  | _ => cases h

/-- Nothing that a static frame executes touches the storage. -/
theorem Keeps.of_isStatic {f : Frame} (static : f.isStatic) (offset : Nat) :
    Keeps storage (f.executeAt offset) := by
  unfold Frame.executeAt
  split
  · rename_i i _
    refine bind (of_charge (fun _ _ => rfl) _) fun _ => ?_
    by_cases hi : i = .storageStore
    · -- the one instruction that stores a word is refused before it does
      subst hi
      intro m
      rw [perform_of_isStatic static rfl]
      rfl
    · exact of_perform hi f offset
  · exact fun _ => rfl

end Machine

namespace Frame

variable {f : Frame} {settings : Settings} {p : Point}

/-- Whether the instruction at a point is paid for and changes the state. -/
def asksForChange (f : Frame) (p : Point) : Bool :=
  (f.instructionAt? p).any (·.changesState) && decide ((f.priceAt p : Int) ≤ p.machine.gas)

/-- A change is asked for by an instruction that changes the state and can be paid for. -/
theorem asksForChange_iff :
    f.asksForChange p ↔ ∃ i, f.instructionAt? p = some i ∧ i.changesState ∧
      (i.price f.revision : Int) ≤ p.machine.gas := by
  rw [asksForChange, Bool.and_eq_true, Option.any_eq_true, decide_eq_true_eq]
  constructor
  · rintro ⟨⟨i, hi, hchanges⟩, paid⟩
    rw [priceAt_of_instructionAt? hi] at paid
    exact ⟨i, hi, hchanges, paid⟩
  · rintro ⟨i, hi, hchanges, paid⟩
    rw [priceAt_of_instructionAt? hi]
    exact ⟨⟨i, hi, hchanges⟩, paid⟩

/-- A frame that must not change the state fails where it is asked for, with nothing changed but the
price paid. -/
theorem resultAt_of_asksForChange (static : f.isStatic) (h : f.asksForChange p) :
    f.resultAt p =
      .error .staticModeViolation { p.machine with gas := p.machine.gas - f.priceAt p } := by
  obtain ⟨i, hi, hchanges, paid⟩ := asksForChange_iff.mp h
  have hvalid : i ≠ .invalid := by
    rintro rfl
    cases hchanges
  rw [resultAt_of_instructionAt? hi (Instruction.introducedIn_of_changesState hchanges) hvalid,
    priceAt_of_instructionAt? hi, if_pos paid, Machine.perform_of_isStatic static hchanges]

/-- The storage stays empty while a frame runs that must not change the state. -/
theorem storage_of_isStatic (static : f.isStatic) (settings : Settings) (gas : Int) :
    ∀ q ∈ f.trail (.start settings gas),
      q.machine.storage = {} ∧ (Machine.stateOf (f.resultAt q)).storage = {} := by
  have hkeeps : ∀ q : Point, (Machine.stateOf (f.resultAt q)).storage = q.machine.storage :=
    fun q => Machine.Keeps.of_isStatic static q.offset q.machine
  have hempty : ∀ q ∈ f.trail (.start settings gas), q.machine.storage = {} := by
    refine forall_mem_trail (fun q => q.machine.storage = {}) ?_ rfl
    intro q q' hq hnext
    obtain ⟨c, hresult, -⟩ := next?_eq_some hnext
    have hkept := hkeeps q
    rw [hresult] at hkept
    exact hkept.trans hq
  intro q hq
  exact ⟨hempty q hq, (hkeeps q).trans (hempty q hq)⟩

section Message

variable {r : Revision} {message : Message} {targets : List Bool}

/-- Only what changes the state looks whether the frame may. -/
theorem perform_static {i : Instruction} (h : i.changesState = false) (offset : Nat) :
    Machine.perform (ofMessage r { message with isStatic := true } targets) offset i =
      Machine.perform (ofMessage r { message with isStatic := false } targets) offset i := by
  cases i <;> first | rfl | cases h

/-- Where no change is asked for, the two frames of a message do the same. -/
theorem resultAt_static
    (h : (ofMessage r { message with isStatic := false } targets).asksForChange p = false) :
    (ofMessage r { message with isStatic := true } targets).resultAt p =
      (ofMessage r { message with isStatic := false } targets).resultAt p := by
  refine Machine.executeAt_congr rfl (fun _ _ => rfl) fun i hi paid =>
    congrFun (perform_static ?_ p.offset) _
  have hbyte := Instruction.ofByte?_of_executable? hi
  cases hchanges : i.changesState with
  | false => rfl
  | true =>
    rw [asksForChange_iff.mpr ⟨i, hbyte, hchanges, paid⟩] at h
    cases h

/-- A frame that must not change the state runs as one that may, until it is asked to. Whatever the
settings, the revision, the message and the jump destinations are: if the run that may change the
state reaches no instruction that does and is paid for, then the other run is the same. Otherwise
the steps before the first such instruction are the same, and there the other run fails, without gas
and output. In any case its storage stays empty. -/
theorem run_static (settings : Settings) (r : Revision) (message : Message) (targets : List Bool)
    (observed : Bool) :
    let free := ofMessage r { message with isStatic := false } targets
    let bound := ofMessage r { message with isStatic := true } targets
    let points := free.trail (.start settings message.gas)
    (free.run settings message.gas true).steps = points.map (free.stepAt settings) ∧
    ((∀ p ∈ points, free.asksForChange p = false) →
      bound.run settings message.gas observed = free.run settings message.gas observed) ∧
    ((∃ p ∈ points, free.asksForChange p) →
      ∃ past p rest, points = past ++ p :: rest ∧
        (∀ q ∈ past, free.asksForChange q = false) ∧ free.asksForChange p ∧
        bound.run settings message.gas observed =
          { status := .staticModeViolation
            gasLeft := 0
            output := []
            steps :=
              if observed then
                past.map (free.stepAt settings) ++
                  [{ free.stepAt settings p with
                      status := .staticModeViolation
                      gasLeft := p.machine.gas - free.priceAt p
                      stackDepth := p.machine.stack.depth
                      pushed := none
                      memorySize := p.machine.memory.size }]
              else [] }) ∧
    ∀ q ∈ bound.trail (.start settings message.gas),
      q.machine.storage = {} ∧ (Machine.stateOf (bound.resultAt q)).storage = {} := by
  intro free bound points
  have hagrees : ∀ q, free.asksForChange q = false → bound.resultAt q = free.resultAt q :=
    fun _ => resultAt_static
  refine ⟨run_steps_observed _ _ _, ?_, ?_, storage_of_isStatic rfl settings message.gas⟩
  · intro unasked
    exact run_eq_of_resultAt (fun _ _ => rfl) fun q hq => hagrees q (unasked q hq)
  · intro asked
    -- the first point that asks for a change splits the trail of the run that may
    obtain ⟨p, hfound⟩ := Option.isSome_iff_exists.mp (List.find?_isSome.mpr asked)
    obtain ⟨hasks, past, rest, hpoints, hpast⟩ := List.find?_eq_some_iff_append.mp hfound
    have unasked : ∀ q ∈ past, free.asksForChange q = false := by
      intro q hq
      simpa using hpast q hq
    have hresult : bound.resultAt p = .error .staticModeViolation
        { p.machine with gas := p.machine.gas - free.priceAt p } :=
      resultAt_of_asksForChange rfl hasks
    have htrail : bound.trail (.start settings message.gas) = past ++ [p] := by
      rw [trail_append (g := bound) hpoints fun q hq => next?_congr rfl (hagrees q (unasked q hq)),
        trail_of_none (next?_of_error hresult)]
    have hpasts : past.map (bound.stepAt settings) = past.map (free.stepAt settings) :=
      List.map_congr_left fun q hq => stepAt_congr rfl (hagrees q (unasked q hq))
    have hlast : bound.stepAt settings p =
        { free.stepAt settings p with
          status := .staticModeViolation
          gasLeft := p.machine.gas - free.priceAt p
          stackDepth := p.machine.stack.depth
          pushed := none
          memorySize := p.machine.memory.size } := by
      rw [stepAt_eq settings hresult]
      simp only [step, index_stepAt, codeOffset_stepAt, opcode_stepAt]
      rfl
    refine ⟨past, p, rest, hpoints, unasked, hasks, ?_⟩
    rw [run_eq_of_endsAt (by rw [htrail, List.getLast?_concat]) (.fault hresult), htrail,
      List.map_append, hpasts, List.map_singleton, hlast]

end Message

end Frame

end EvmDispatch
