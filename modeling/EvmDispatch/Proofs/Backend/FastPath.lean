import EvmDispatch.Backend.FastPath
import EvmDispatch.Backend.Interpreter
import EvmDispatch.Proofs.Machine.StraightLine

/-!
# What the fast backend takes

The fast backend declines a call if some instruction of its code jumps, whether the execution would
come there or not, and whatever the bytes inside the instructions are. All other calls it answers as
the reference interpreter does, since code without jumps runs alike under every table of jump
destinations. So a rejection tells that the code has a jump, and nothing else does
(`execute_declines_jumps`).
-/

namespace EvmDispatch.FastPath

variable {e : Engine} {r : Revision} {message : Message} {observed : Bool}

/-- The fast backend runs code without jumps as the reference interpreter does. -/
theorem execute_of_straight (straight : Code.isStraightLine message.code = true) :
    execute e r message observed = Interpreter.execute e r message observed := by
  have hrun : (Frame.ofMessage r message []).run e.settings message.gas observed =
      (Frame.ofMessage r message (Code.jumpTable message.code)).run e.settings message.gas
        observed :=
    Frame.run_ofMessage_of_straight straight _ _ _
  rw [execute, if_pos straight, Interpreter.execute, Engine.run, Engine.run, hrun]

/-- Code that jumps is declined, and nothing is used up. -/
theorem execute_of_not_straight (h : Code.isStraightLine message.code = false) :
    execute e r message observed = ({ status := .rejected }, e) :=
  if_neg (ne_true_of_eq_false h)

theorem settings_execute (e : Engine) (r : Revision) (message : Message) (observed : Bool) :
    (execute e r message observed).2.settings = e.settings := by
  unfold execute
  split <;> rfl

/-- The fast backend declines exactly the code that has a jump. Whatever the settings, the revision
and the message are, and whether the call is observed or not: the answer is a rejection if and only
if some instruction of the code jumps; it then has no steps, no gas left and no output; and
otherwise it is the answer of the reference interpreter under the same settings. What the two
instances hold in their buffers does not matter. -/
theorem execute_declines_jumps (settings : Settings) (buffer buffer' : Bytes) (r : Revision)
    (message : Message) (observed : Bool) :
    let reply := (execute { settings, buffer } r message observed).1
    (reply.status = .rejected ↔ Code.HasJump message.code) ∧
      (Code.HasJump message.code →
        reply = { status := .rejected, gasLeft := 0, output := [], steps := [] }) ∧
      (¬ Code.HasJump message.code →
        reply =
          (Interpreter.execute { settings, buffer := buffer' } r message observed).1) := by
  intro reply
  cases hscan : Code.isStraightLine message.code with
  | false =>
    have hjump := Code.isStraightLine_eq_false_iff.mp hscan
    have hreply : reply = { status := .rejected } :=
      congrArg Prod.fst (execute_of_not_straight hscan)
    refine ⟨?_, fun _ => hreply, fun hnone => absurd hjump hnone⟩
    rw [hreply]
    exact ⟨fun _ => hjump, fun _ => rfl⟩
  | true =>
    have hnone : ¬ Code.HasJump message.code := by
      rw [← Code.isStraightLine_eq_false_iff, hscan]
      nofun
    have hreply : reply =
        (Interpreter.execute { settings, buffer := buffer' } r message observed).1 :=
      congrArg Prod.fst (execute_of_straight hscan)
    have hstatus : reply.status ≠ .rejected := by
      rw [hreply]
      exact Frame.run_status_ne_rejected _ _ _ _
    exact ⟨⟨fun h => absurd h hstatus, fun h => absurd h hnone⟩, fun h => absurd h hnone,
      fun _ => hreply⟩

end EvmDispatch.FastPath
