import EvmDispatch.Proofs.Vm.Refusal

/-!
# What a trace shows of a call

A virtual machine that traces writes for each answer to a call the line of its start, a line per
step, and the line of its end. A caller that observes is told the same steps in the same order. The
printer goes along with a call that is handed on, and comes back, so that the virtual machine still
traces afterwards. Otherwise tracing shows in a call only if an engine answers an observer
differently: erasing the steps from the answers of a traced call leaves those of the same call
without tracing (`unobserved_answers`).
-/

namespace EvmDispatch

/-- The lines for an answer to a call. -/
def Trace.callLines (r : Revision) (ctx : CallContext) (gas : Nat) (reply : Reply) : List String :=
  Trace.startLine ctx.depth ctx.caller ctx.callee gas ::
    (reply.steps.map (Trace.stepLine r) ++
      [Trace.endLine ctx.depth reply.status reply.gasLeft])

/-- An answer but for its steps, which only an observer can see. -/
def Reply.unobserved (reply : Reply) : Reply := { reply with steps := [] }

/-- Whether it is observed makes no difference to the next answer of an instance. -/
def Instance.IgnoresObserver (i : Instance) : Prop :=
  ∀ r message, (i.reply r message true).unobserved = (i.reply r message false).unobserved

theorem Instance.IgnoresObserver.unobserved_reply {i : Instance} (h : i.IgnoresObserver)
    (r : Revision) (message : Message) (observed observed' : Bool) :
    (i.reply r message observed).unobserved = (i.reply r message observed').unobserved := by
  cases observed <;> cases observed'
  · rfl
  · exact (h r message).symm
  · exact h r message
  · rfl

namespace Vm

/-- The same virtual machine, with tracing switched on or off. -/
def withTracing (vm : Vm) (tracing : Bool) : Vm := { vm with tracing }

variable {vm : Vm} {gas : Nat} {ctx : CallContext} {message : Message} {observed : Bool} {log : Log}
  {r : Revision}

/-! ## Lines -/

theorem lines_traceLines (h : vm.tracing = true) (lines : List String) (log : Log) :
    (vm.traceLines lines log).lines = log.lines ++ lines := by
  rw [traceLines, if_pos h, Log.lines_addAll_lines]

/-- A traced call is written down with all that its answer says. -/
theorem lines_serve (h : vm.tracing = true) (hmessage : ctx.message? gas = .ok message)
    (observed : Bool) (log : Log) :
    (vm.serve ctx message observed log).2.2.lines =
      log.lines ++ Trace.callLines ctx.schedule.revision ctx gas
        (vm.reply ctx.schedule.revision message observed) := by
  have hgas : message.gas = gas := (CallContext.conveys_of_message? hmessage).gas
  unfold serve Instance.execute
  rw [lines_traceLines h, lines_traceLines h, Log.lines_add rfl, lines_traceLines h, hgas]
  simp only [List.append_assoc, List.singleton_append]
  rfl

theorem lines_addAll_optionNotice (log : Log) (engine : String) (o : VmOption)
    (answer : OptionAnswer) :
    (log.addAll (optionNotice engine o answer).toList).lines = log.lines := by
  rw [Log.lines_addAll]
  cases answer <;> exact List.append_nil _

/-- Options are reported by notices, and not in the trace. -/
theorem lines_setOption (engine : Instance) (name value : String) (log : Log) :
    (engine.setOption name value log).2.2.lines = log.lines := by
  unfold Instance.setOption
  by_cases h : engine.backend.reaches name value = true
  · rw [if_pos h]
    exact Log.lines_add rfl
  · rw [if_neg h]

theorem lines_applyOptions (engine : Instance) (log : Log) (options : List VmOption) :
    (applyOptions engine log options).2.lines = log.lines := by
  induction options generalizing engine log with
  | nil => rfl
  | cons o rest ih => rw [applyOptions, ih, lines_addAll_optionNotice, lines_setOption]

/-- Setting options leaves an instance in the state that they lead to, and writes no line. -/
theorem applyOptions_lines (engine : Instance) (log : Log) (options : List VmOption) :
    ∃ log', applyOptions engine log options =
        ({ engine with state := engine.backend.configure engine.state options }, log') ∧
      log'.lines = log.lines := by
  obtain ⟨log', happly, -⟩ := applyOptions_eq engine log options
  have hlines := lines_applyOptions engine log options
  rw [happly] at hlines
  exact ⟨log', happly, hlines⟩

/-! ## The log of a call, from its parts -/

theorem exec_log_of_taken (observed : Bool) (log : Log) (h : ctx.message? gas = .ok message)
    (hstatus : (vm.reply ctx.schedule.revision message observed).status ≠ .rejected) :
    (vm.exec gas ctx observed log).2.2 = (vm.serve ctx message observed log).2.2 := by
  obtain ⟨log', hserve, -⟩ := serve_eq vm ctx message observed log
  obtain ⟨outcome, -, houtcome, -, -⟩ := exec_of_taken log h hstatus
  rw [Reply.outcome?] at houtcome
  rw [exec, h]
  simp only [hserve, houtcome]

theorem exec_log_of_rejected (observed : Bool) (log : Log) (h : ctx.message? gas = .ok message)
    (hstatus : (vm.reply ctx.schedule.revision message observed).status = .rejected) :
    (vm.exec gas ctx observed log).2.2 =
      ((vm.afterCall ctx.schedule.revision message observed).fallBack gas ctx observed
        (vm.serve ctx message observed log).2.2).2.2 := by
  obtain ⟨log', hserve, -⟩ := serve_eq vm ctx message observed log
  have houtcome := Reply.outcome?_eq_none_iff.mpr hstatus
  rw [Reply.outcome?] at houtcome
  rw [exec, h]
  simp only [hserve, houtcome]
  rfl

theorem lines_exec_of_fallback_none (h : vm.tracing = true)
    (hmessage : ctx.message? gas = .ok message) (hfallback : vm.fallback = none) (observed : Bool)
    (log : Log) :
    (vm.exec gas ctx observed log).2.2.lines =
      log.lines ++ Trace.callLines ctx.schedule.revision ctx gas
        (vm.reply ctx.schedule.revision message observed) := by
  by_cases hstatus : (vm.reply ctx.schedule.revision message observed).status = .rejected
  · have hfallback : (vm.afterCall ctx.schedule.revision message observed).fallback = none :=
      hfallback
    rw [exec_log_of_rejected observed log hmessage hstatus, fallBack_of_none hfallback,
      lines_serve h hmessage]
  · rw [exec_log_of_taken observed log hmessage hstatus, lines_serve h hmessage]

/-- What is written while a call is handed on: the lines for the answer of the new instance, if
there is one. -/
theorem lines_fallBack (h : vm.tracing = true) (hmessage : ctx.message? gas = .ok message)
    (observed : Bool) (log : Log) :
    (vm.fallBack gas ctx observed log).2.2.lines =
      log.lines ++ (vm.relief? log).toList.flatMap fun substitute =>
        Trace.callLines ctx.schedule.revision ctx gas
          (substitute.reply ctx.schedule.revision message observed) := by
  rw [fallBack]
  split
  · rename_i hnone
    rw [relief?_of_none hnone]
    exact (List.append_nil _).symm
  · rename_i fallback hfallback
    simp only [Constructor.instantiate, nextId_add_notice]
    cases hmake : fallback.constructor.make (log.nextId fallback.constructor.origin).serial with
    | error e =>
      rw [relief?_of_error hfallback hmake, Option.toList_none, List.flatMap_nil, List.append_nil]
      simp only [Log.lines_add (e := .notice _ _) rfl, Log.lines_add (e := .refused _ _) rfl]
    | ok b =>
      rw [relief?_of_ok hfallback hmake, Option.toList_some, List.flatMap_singleton]
      obtain ⟨log₁, happly, hlines⟩ := applyOptions_lines
        { id := log.nextId fallback.constructor.origin, backend := b, state := b.start } _ _
      simp only
      rw [happly, release, Instance.release, Log.lines_add rfl]
      rw [Log.lines_add rfl, Log.lines_add rfl] at hlines
      have htracing : (vm.substitute fallback b log).tracing = true := h
      have hexec := lines_exec_of_fallback_none htracing hmessage rfl observed log₁
      rw [hlines] at hexec
      exact hexec

/-- The new instance of the fallback is the same whether or not the answer before it has been
recorded. -/
theorem relief?_afterCall (vm : Vm) (r : Revision) (message : Message) (observed : Bool)
    {log₁ : Log}
    (h : log₁.instanceEvents = log.instanceEvents ++ [vm.callEvent r message observed]) :
    (vm.afterCall r message observed).relief? log₁ = vm.relief? log := by
  have hid : ∀ origin, log₁.nextId origin = log.nextId origin :=
    fun origin => Log.nextId_congr h rfl
  simp only [relief?, substitute, hid]
  rfl

/-- The lines of a call that passes the checks, for each of its answers in their order. -/
theorem lines_exec (h : vm.tracing = true) (hmessage : ctx.message? gas = .ok message)
    (observed : Bool) (log : Log) :
    (vm.exec gas ctx observed log).2.2.lines =
      log.lines ++ (vm.answers ctx.schedule.revision message observed log).flatMap
        (Trace.callLines ctx.schedule.revision ctx gas) := by
  by_cases hstatus : (vm.reply ctx.schedule.revision message observed).status = .rejected
  · obtain ⟨log₁, hserve, hevents⟩ := serve_eq vm ctx message observed log
    have hlines := lines_serve h hmessage observed log
    have htracing : (vm.afterCall ctx.schedule.revision message observed).tracing = true := h
    have hfallBack := lines_fallBack htracing hmessage observed log₁
    rw [relief?_afterCall vm _ message observed hevents] at hfallBack
    rw [hserve] at hlines
    rw [exec_log_of_rejected observed log hmessage hstatus, hserve, hfallBack, hlines,
      answers_of_rejected hstatus, List.flatMap_cons, List.append_assoc, List.flatMap_map]
  · rw [exec_log_of_taken observed log hmessage hstatus, lines_serve h hmessage,
      answers_of_taken hstatus, List.flatMap_singleton]

/-! ## Steps -/

theorem flatMap_shown (observed : Bool) (answers : List Reply) :
    answers.flatMap (·.shown observed) = if observed then answers.flatMap Reply.steps else [] := by
  cases observed with
  | true => rfl
  | false => exact List.flatMap_eq_nil_iff.mpr fun _ _ => rfl

/-! ## With and without tracing -/

/-- The relief is traced as the virtual machine is. -/
theorem relief?_withTracing (vm : Vm) (tracing : Bool) (log : Log) :
    (vm.withTracing tracing).relief? log =
      (vm.relief? log).map fun substitute => substitute.withTracing tracing := by
  unfold relief? withTracing
  cases vm.fallback with
  | none => rfl
  | some fallback =>
    simp only
    cases fallback.constructor.make (log.nextId fallback.constructor.origin).serial <;> rfl

theorem reply_observed (vm : Vm) (tracing : Bool) (r : Revision) (message : Message) :
    (vm.withTracing tracing).reply r message true = vm.reply r message true := by
  rw [reply, reply, Bool.or_true, Bool.or_true]
  rfl

/-- For a caller that observes, every engine is observed anyway. -/
theorem answers_observed (vm : Vm) (tracing : Bool) (r : Revision) (message : Message) (log : Log) :
    (vm.withTracing tracing).answers r message true log = vm.answers r message true log := by
  unfold answers
  rw [reply_observed, relief?_withTracing]
  cases vm.relief? log with
  | none => rfl
  | some substitute =>
    simp only [Option.map_some, Option.toList_some, List.map_cons, List.map_nil, reply_observed]

/-- The answers to a call with and without tracing differ in their steps only. -/
theorem unobserved_answers (hengine : vm.engine.IgnoresObserver)
    (hrelief : ∀ substitute ∈ vm.relief? log, substitute.engine.IgnoresObserver) (tracing : Bool)
    (r : Revision) (message : Message) (observed : Bool) :
    ((vm.withTracing tracing).answers r message observed log).map Reply.unobserved =
      (vm.answers r message observed log).map Reply.unobserved := by
  have hreply : ((vm.withTracing tracing).reply r message observed).unobserved =
      (vm.reply r message observed).unobserved :=
    hengine.unobserved_reply r message _ _
  have hstatus := congrArg Reply.status hreply
  change ((vm.withTracing tracing).reply r message observed).status =
    (vm.reply r message observed).status at hstatus
  by_cases h : (vm.reply r message observed).status = .rejected
  · rw [answers_of_rejected h, answers_of_rejected (hstatus.trans h), relief?_withTracing,
      List.map_cons, List.map_cons, hreply]
    cases hsubstitute : vm.relief? log with
    | none => rfl
    | some substitute =>
      have hsecond : ((substitute.withTracing tracing).reply r message observed).unobserved =
          (substitute.reply r message observed).unobserved :=
        (hrelief substitute hsubstitute).unobserved_reply r message _ _
      simp only [Option.map_some, Option.toList_some, List.map_cons, List.map_nil, hsecond]
  · have h' : ((vm.withTracing tracing).reply r message observed).status ≠ .rejected :=
      hstatus ▸ h
    rw [answers_of_taken h, answers_of_taken h', List.map_singleton, List.map_singleton, hreply]

/-- The outcome of a call does not depend on its steps. -/
theorem lastOutcome_unobserved (answers : List Reply) :
    lastOutcome (answers.map Reply.unobserved) = lastOutcome answers := by
  rw [lastOutcome, lastOutcome, List.getLast?_map]
  cases answers.getLast? <;> rfl

/-- Tracing does not show in what a caller gets. -/
theorem exec_withTracing (hengine : vm.engine.IgnoresObserver)
    (hrelief : ∀ substitute ∈ vm.relief? log, substitute.engine.IgnoresObserver) (tracing : Bool)
    (gas : Nat) (ctx : CallContext) (observed : Bool) :
    ((vm.withTracing tracing).exec gas ctx observed log).1 =
      (vm.exec gas ctx observed log).1 := by
  cases hmessage : ctx.message? gas with
  | error e => rw [exec_of_error hmessage, exec_of_error hmessage]
  | ok message =>
    rw [exec_result _ observed log hmessage, exec_result _ observed log hmessage]
    cases observed with
    | true => rw [answers_observed]
    | false =>
      have houtcome := congrArg lastOutcome
        (unobserved_answers hengine hrelief tracing ctx.schedule.revision message false)
      rw [lastOutcome_unobserved, lastOutcome_unobserved] at houtcome
      rw [houtcome, flatMap_shown, flatMap_shown]
      rfl

/-- The transcript of a traced call. If the call is refused there is none. Otherwise it has the
lines for each answer to the call in their order, and a caller that observes is told the steps of
just these answers. The virtual machine traces afterwards as before. The caller gets the same
without tracing, unless an instance that answers minds being observed. -/
theorem exec_transcript (vm : Vm) (gas : Nat) (ctx : CallContext) (observed : Bool) (log : Log)
    (h : vm.tracing = true) :
    let r := ctx.schedule.revision
    let done := vm.exec gas ctx observed log
    done.2.1.tracing = true ∧
    (∀ e, ctx.message? gas = .error e → done.2.2.lines = log.lines ∧ done.1.steps = []) ∧
    (∀ message, ctx.message? gas = .ok message →
      let answers := vm.answers r message observed log
      done.2.2.lines = log.lines ++ answers.flatMap (Trace.callLines r ctx gas) ∧
      done.1.steps = if observed then answers.flatMap Reply.steps else []) ∧
    (vm.engine.IgnoresObserver →
      (∀ substitute ∈ vm.relief? log, substitute.engine.IgnoresObserver) →
      done.1 = ((vm.withTracing false).exec gas ctx observed log).1) := by
  intro r done
  refine ⟨(exec_kept vm gas ctx observed log).tracing.trans h, ?_, ?_, ?_⟩
  · intro e hrefused
    have hdone : done = _ := exec_of_error hrefused
    rw [hdone]
    exact ⟨rfl, rfl⟩
  · intro message hmessage answers
    have hsteps : done.1.steps = answers.flatMap (·.shown observed) :=
      congrArg CallResult.steps (exec_result vm observed log hmessage)
    exact ⟨lines_exec h hmessage observed log, hsteps.trans (flatMap_shown observed answers)⟩
  · intro hengine hrelief
    exact (exec_withTracing hengine hrelief false gas ctx observed).symm

/-- A call that is declined with debts after one step, and that a fallback without steps takes. -/
theorem exec_transcript_declined :
    let step : Step :=
      { index := 0, codeOffset := 0, opcode := 1, status := .success, gasLeft := 3, stackDepth := 1
        pushed := none, memorySize := 0 }
    let vm : Vm :=
      { engine :=
          { id := ⟨.supplied 0, 0⟩
            backend :=
              ({ status := .rejected, gasLeft := some (-1), steps := [step] } : Script).backend
            state := () }
        fallback := some
          { name := "second", constructor := .ofBackend (.supplied 1) ({} : Script).backend
            options := [⟨"limit", "7"⟩] }
        tracing := true }
    (vm.exec 5 {} true {}).2.2.lines =
      ["message START 0 0x0000000000000000000000000000000000000000 -> " ++
          "0x0000000000000000000000000000000000000000 gas: 5",
        "0 0 ADD 0 3 1 0", "message END   0 status: -2 gas left: -1",
        "message START 0 0x0000000000000000000000000000000000000000 -> " ++
          "0x0000000000000000000000000000000000000000 gas: 5",
        "message END   0 status: 0 gas left: 5"] ∧
      (vm.exec 5 {} true {}).1.steps = [step] ∧
      (vm.exec 5 {} true {}).1 = ((vm.withTracing false).exec 5 {} true {}).1 := by
  intro step vm
  obtain ⟨-, -, htranscript, hsame⟩ := exec_transcript vm 5 {} true {} rfl
  obtain ⟨hlines, hsteps⟩ := htranscript { gas := 5 } rfl
  refine ⟨hlines.trans ?_, hsteps.trans ?_, hsame ?_ ?_⟩
  · dsimp only [vm, step]
    decide +kernel
  · rfl
  · exact fun _ _ => rfl
  · intro substitute h
    obtain rfl := Option.some.inj h
    exact fun _ _ => rfl

end Vm

end EvmDispatch
