import EvmDispatch.Proofs.Vm.Answers
import EvmDispatch.Proofs.Vm.Creation
import EvmDispatch.Proofs.Vm.Interchange

/-!
# Rejections stay inside

The reference interpreter answers every call, whatever its code: a run ends by success, by a request
to undo or by a fault, and none of these is a rejection (`Frame.run_status_ne_rejected`). So where
it is what declined calls fall back on, no caller learns of a rejection. A call that was declined
comes to what it comes to on a virtual machine of the reference interpreter, since both interpreters
have received the same options, and neither former calls nor observers change how a run ends.
-/

namespace EvmDispatch

theorem Status.canonical_of_isFault {s : Status} (h : s.isFault) : s.Canonical := by
  cases s with
  | other code => cases h
  | _ => decide

/-- An engine that reports by known numbers never has the number of a rejection for something
else. -/
theorem Reply.outcome?_ne_rejected {reply : Reply} (h : reply.status.Canonical) :
    reply.outcome? ≠ some (.failure (.internalError (-2))) := by
  intro houtcome
  unfold outcome? at houtcome
  cases hstatus : reply.status with
  | other code =>
    rw [hstatus] at h houtcome
    obtain rfl : code = -2 :=
      Failure.internalError.inj (Outcome.failure.inj (Option.some.inj houtcome))
    exact absurd h (by decide)
  | _ => simp [Outcome.ofAnswer?, hstatus, Status.raw] at houtcome

/-- Every run ends by a status that survives as a number. -/
theorem Frame.run_status_canonical (f : Frame) (settings : Settings) (gas : Int)
    (observed : Bool) : (f.run settings gas observed).status.Canonical := by
  obtain ⟨last, -, hends⟩ := run_ends f settings gas observed
  rcases hends.status_cases with h | h | h
  · rw [h]
    decide
  · rw [h]
    decide
  · exact Status.canonical_of_isFault h

namespace Vm

variable {vm : Vm} {settings : Settings} {tracing observed : Bool} {r : Revision}
  {message : Message} {options : List VmOption} {log : Log}

theorem outcome?_referenceReply_eq (settings : Settings) (tracing tracing' : Bool) (r : Revision)
    (message : Message) (observed observed' : Bool) :
    (referenceReply settings tracing' r message observed').outcome? =
      (referenceReply settings tracing r message observed).outcome? := by
  obtain ⟨hstatus, hgasLeft, houtput⟩ := Frame.run_unobserved
    (Frame.ofMessage r message (Code.jumpTable message.code)) settings message.gas
    (tracing || observed) (tracing' || observed')
  unfold referenceReply Reply.outcome?
  rw [hstatus, hgasLeft, houtput]

/-- A call that is taken does not come to a rejection, if the status survives as a number. -/
theorem outcome_ne_rejected {reply : Reply} (hcanonical : reply.status.Canonical)
    (hstatus : reply.status ≠ .rejected) :
    reply.outcome?.getD declined ≠ .failure (.internalError (-2)) := by
  have hne := Reply.outcome?_ne_rejected hcanonical
  cases houtcome : reply.outcome? with
  | none => exact absurd (Reply.outcome?_eq_none_iff.mp houtcome) hstatus
  | some outcome =>
    rw [houtcome] at hne
    exact fun h => hne (congrArg some h)

/-- The reference interpreter comes to an outcome, which is no rejection. -/
theorem referenceReply_not_rejected (settings : Settings) (tracing : Bool) (r : Revision)
    (message : Message) (observed : Bool) :
    (referenceReply settings tracing r message observed).outcome?.getD declined ≠
      .failure (.internalError (-2)) :=
  outcome_ne_rejected (Frame.run_status_canonical _ _ _ _) (Frame.run_status_ne_rejected _ _ _ _)

/-- After a rejection the reference interpreter decides, under the options of the fallback. -/
theorem lastOutcome_of_rejected (h : vm.fallback = some (builtinFallback options))
    (hstatus : (vm.reply r message observed).status = .rejected) (log : Log)
    (tracing observed' : Bool) :
    lastOutcome (vm.answers r message observed log) =
      (referenceReply (Engine.configured options).settings tracing r message
        observed').outcome?.getD declined := by
  let second := vm.substitute (builtinFallback options) Interpreter.backend log
  have hrelief : vm.relief? log = some second := relief?_of_ok h rfl
  have hsecond : second.reply r message observed =
      referenceReply (Engine.configured options).settings vm.tracing r message observed := rfl
  have hlast : lastOutcome [vm.reply r message observed, second.reply r message observed] =
      (second.reply r message observed).outcome?.getD declined := rfl
  rw [answers_of_rejected hstatus, hrelief, Option.toList_some, List.map_singleton, hlast, hsecond,
    outcome?_referenceReply_eq]

/-- A call that the instance takes does not come to a rejection. -/
theorem lastOutcome_of_taken (hcanonical : (vm.reply r message observed).status.Canonical)
    (hstatus : (vm.reply r message observed).status ≠ .rejected) (log : Log) :
    lastOutcome (vm.answers r message observed log) ≠ .failure (.internalError (-2)) := by
  rw [answers_of_taken hstatus]
  exact outcome_ne_rejected hcanonical hstatus

/-- Several calls change nothing of a virtual machine but the state of its instance. -/
theorem afterCalls_kept (vm : Vm) (log : Log) (calls : List Call) :
    Kept vm (vm.afterCalls log calls).1 := by
  induction calls generalizing vm log with
  | nil => exact ⟨rfl, rfl, rfl, rfl⟩
  | cons call rest ih =>
    rw [afterCalls]
    exact (exec_kept vm call.gas call.context call.observed log).trans (ih _ _)

end Vm

/-- A backend whose answers have statuses that survive as numbers. -/
def Backend.AnswersCanonically (b : Backend) : Prop :=
  ∀ s r message observed, (b.execute s r message observed).1.status.Canonical

theorem FastPath.answersCanonically : FastPath.backend.AnswersCanonically := by
  intro (e : Engine) r message observed
  show (FastPath.execute e r message observed).1.status.Canonical
  cases straight : Code.isStraightLine message.code with
  | true =>
    rw [FastPath.execute_of_straight straight]
    exact Frame.run_status_canonical _ _ _ _
  | false =>
    have hrejected : Status.rejected.Canonical := by decide
    rw [FastPath.execute_of_not_straight straight]
    exact hrejected

namespace Factory

/-- Where declined calls fall back on the reference interpreter, no call on a virtual machine of the
factory comes to a rejection, whatever backend it was made for and whatever calls it has served. If
its own instance declines a call, the outcome and the gas left are those of the same call on any
virtual machine that the factory has made for the reference interpreter. -/
theorem rejection_never_surfaces (f : Factory) (h : f.HasReference) {name : Option String}
    {log log' : Log} {vm : Vm} (hcreate : f.create name log = (.ok vm, log'))
    (hcanonical : vm.engine.backend.AnswersCanonically) (before : List Vm.Call) (start now : Log)
    (gas : Nat) (ctx : CallContext) (observed : Bool) :
    let used := (vm.afterCalls start before).1
    let result := (used.exec gas ctx observed now).1
    result.outcome ≠ .ok (.failure (.internalError (-2))) ∧
    ∀ message, ctx.message? gas = .ok message →
      (used.reply ctx.schedule.revision message observed).status = .rejected →
      ∀ log₁, ∃ reference log₂,
        f.create (some defaultBackend) log₁ = (.ok reference, log₂) ∧
        ∀ (before' : List Vm.Call) (start' now' : Log) (observed' : Bool),
          let expected := ((reference.afterCalls start' before').1.exec gas ctx observed' now').1
          result.outcome = expected.outcome ∧ result.gas = expected.gas := by
  intro used result
  have hkept : vm.Kept used := vm.afterCalls_kept start before
  have hfallback : used.fallback = some (Vm.builtinFallback f.options) :=
    hkept.fallback.trans ((of_create_eq_ok hcreate).1.trans h.fallback?_eq)
  have hstatus : ∀ r message observed, (used.reply r message observed).status.Canonical := by
    have hbackend : used.engine.backend.AnswersCanonically := hkept.backend ▸ hcanonical
    exact fun r message observed => hbackend _ r message _
  refine ⟨?_, ?_⟩
  · cases hmessage : ctx.message? gas with
    | error e =>
      have hresult : result.outcome = .error e :=
        congrArg (·.1.outcome) (Vm.exec_of_error hmessage)
      rw [hresult]
      exact nofun
    | ok message =>
      have hresult : result.outcome = .ok _ :=
        congrArg CallResult.outcome (Vm.exec_result used observed now hmessage)
      rw [hresult]
      intro hrejected
      have hrejected := Except.ok.inj hrejected
      by_cases hdeclined : (used.reply ctx.schedule.revision message observed).status = .rejected
      · rw [Vm.lastOutcome_of_rejected hfallback hdeclined now f.trace observed] at hrejected
        exact Vm.referenceReply_not_rejected _ _ _ _ _ hrejected
      · exact Vm.lastOutcome_of_taken (hstatus _ _ _) hdeclined now hrejected
  · intro message hmessage hdeclined log₁
    obtain ⟨reference, log₂, hreference, hserves⟩ := h.create log₁
    refine ⟨reference, log₂, hreference, fun before' start' now' observed' => ?_⟩
    obtain ⟨_, _, -, hexec⟩ := (hserves.afterCalls start' before').exec gas ctx observed' now'
    have hresult : result = _ := Vm.exec_result used observed now hmessage
    rw [hresult, hexec, Vm.referenceResult_of_ok hmessage,
      Vm.lastOutcome_of_rejected hfallback hdeclined now f.trace observed']
    exact ⟨rfl, rfl⟩

/-- The fast backend declines code that jumps. -/
theorem rejection_never_surfaces_fastPath :
    let f := ({} : HostConfig).finalize
    let ctx : CallContext := { code := [0x60, 0x04, 0x56, 0xfe, 0x5b, 0x00] }
    ∃ vm log', f.create (some FastPath.name) {} = (.ok vm, log') ∧
      (vm.reply .frontier { gas := 100, code := ctx.code } false).status = .rejected ∧
      (vm.exec 100 ctx false log').1.outcome ≠ .ok (.failure (.internalError (-2))) ∧
      ∃ reference log₂, f.create (some defaultBackend) log' = (.ok reference, log₂) ∧
        (vm.exec 100 ctx false log').1.outcome = (reference.exec 100 ctx true log₂).1.outcome := by
  intro f ctx
  have href : f.HasReference := hasReference_of_builtins rfl
  obtain ⟨log', hcreate⟩ :=
    create_of_ok f {} (b := FastPath.backend) Registry.get?_builtins_fastPath rfl
  have hjumps : Code.isStraightLine ctx.code = false := by decide
  have hexecute : FastPath.execute (Engine.configured f.options) .frontier
      { gas := 100, code := ctx.code } (f.trace || false) = _ :=
    FastPath.execute_of_not_straight hjumps
  have hdeclined := congrArg (·.1.status) hexecute
  obtain ⟨hne, hsame⟩ := rejection_never_surfaces f href hcreate FastPath.answersCanonically [] log'
    log' 100 ctx false
  obtain ⟨reference, log₂, hreference, hexpected⟩ :=
    hsame { gas := 100, code := ctx.code } rfl hdeclined log'
  exact ⟨_, log', hcreate, hdeclined, hne, reference, log₂, hreference,
    (hexpected [] log₂ log₂ true).1⟩

end Factory

end EvmDispatch
