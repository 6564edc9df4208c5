import EvmDispatch.Backend.Echo
import EvmDispatch.Proofs.Backend.FastPath

/-!
# What instances keep between calls

An instance keeps its configuration and a buffer, and the buffer is written before it is lent out
again. So a call leaves nothing behind: the answer to a call is the one that a new instance would
give that has received the options before it, but none of the calls
(`Backend.calls_leave_nothing`). That an instance remembers no more than a part of its state is
shown of single requests (`Remembers`), and follows for sequences of requests by induction.
-/

namespace EvmDispatch

namespace Backend

/-- What may be asked of an instance. -/
inductive Request where
  | option (name value : String)
  | call (r : Revision) (message : Message) (observed : Bool)

inductive Answer where
  | option (answer : OptionAnswer)
  | call (reply : Reply)

def Request.isOption : Request → Bool
  | option _ _ => true
  | call _ _ _ => false

def serve (b : Backend) (s : b.State) : Request → Answer × b.State
  | .option name value =>
    let (answer, s) := b.setOption s name value
    (.option answer, s)
  | .call r message observed =>
    let (reply, s) := b.execute s r message observed
    (.call reply, s)

/-- The state after a sequence of requests. -/
def after (b : Backend) (s : b.State) (requests : List Request) : b.State :=
  requests.foldl (fun s request => (b.serve s request).2) s

/-- The answers to a sequence of requests. -/
def answers (b : Backend) (s : b.State) : List Request → List Answer
  | [] => []
  | request :: rest => (b.serve s request).1 :: b.answers (b.serve s request).2 rest

/-- Whatever is asked of an instance, each answer is that of a new instance which has received the
options before the request, and no call. -/
def Isolated (b : Backend) : Prop :=
  ∀ (requests : List Request) (i : Nat),
    (b.answers b.start requests)[i]? =
      requests[i]?.map fun request =>
        (b.serve (b.after b.start ((requests.take i).filter (·.isOption))) request).1

/-- That an instance remembers a part of its state only: its answers depend on this part, options
change it by what it is, and calls keep it. -/
structure Remembers (b : Backend) {κ : Type} (memory : b.State → κ) : Prop where
  option {s s' : b.State} (name value : String) (same : memory s = memory s') :
    (b.setOption s name value).1 = (b.setOption s' name value).1 ∧
      memory (b.setOption s name value).2 = memory (b.setOption s' name value).2
  call {s s' : b.State} (r : Revision) (message : Message) (observed : Bool)
    (same : memory s = memory s') :
    (b.execute s r message observed).1 = (b.execute s' r message observed).1
  kept (s : b.State) (r : Revision) (message : Message) (observed : Bool) :
    memory (b.execute s r message observed).2 = memory s

variable {b : Backend} {κ : Type} {memory : b.State → κ}

/-- An answer is that of the instance in the state which the requests before have left. -/
theorem getElem?_answers (b : Backend) (s : b.State) (requests : List Request) (i : Nat) :
    (b.answers s requests)[i]? =
      requests[i]?.map fun request => (b.serve (b.after s (requests.take i)) request).1 := by
  induction requests generalizing s i with
  | nil => rfl
  | cons request rest ih =>
    cases i with
    | zero => rfl
    | succ i =>
      rw [answers, List.getElem?_cons_succ, List.getElem?_cons_succ, ih, List.take_succ_cons]
      rfl

/-- Instances that remember the same give the same answer. -/
theorem Remembers.answer_eq (h : b.Remembers memory) {s s' : b.State}
    (same : memory s = memory s') (request : Request) :
    (b.serve s request).1 = (b.serve s' request).1 := by
  cases request with
  | option name value => exact congrArg Answer.option (h.option name value same).1
  | call r message observed => exact congrArg Answer.call (h.call r message observed same)

/-- Calls can be left out of a history. -/
theorem Remembers.after_eq (h : b.Remembers memory) {s s' : b.State}
    (same : memory s = memory s') (requests : List Request) :
    memory (b.after s requests) = memory (b.after s' (requests.filter (·.isOption))) := by
  -- the two instances part with the first call, but go on remembering the same
  induction requests generalizing s s' with
  | nil => exact same
  | cons request rest ih =>
    cases request with
    | option name value =>
      have hoption : (Request.option name value).isOption = true := rfl
      rw [List.filter_cons_of_pos hoption]
      exact ih (h.option name value same).2
    | call r message observed =>
      have hcall : ¬ (Request.call r message observed).isOption = true := nofun
      rw [List.filter_cons_of_neg hcall]
      exact ih ((h.kept s r message observed).trans same)

/-- An instance that remembers what its options have said, and nothing else, is isolated. -/
theorem Remembers.isolated (h : b.Remembers memory) : b.Isolated := by
  intro requests i
  rw [getElem?_answers]
  congr 1
  funext request
  exact h.answer_eq (h.after_eq rfl _) request

end Backend

/-! ## The backends of this library -/

namespace Engine

variable {e e' : Engine}

/-- Engines with the same settings do the same, whatever their buffers hold. -/
theorem set_congr (same : e.settings = e'.settings) (name value : String) :
    (e.set name value).1 = (e'.set name value).1 ∧
      (e.set name value).2.settings = (e'.set name value).2.settings := by
  unfold set
  rw [same]
  exact ⟨rfl, rfl⟩

theorem run_congr (same : e.settings = e'.settings) (r : Revision) (message : Message)
    (targets : List Bool) (observed : Bool) :
    (e.run r message targets observed).1 = (e'.run r message targets observed).1 := by
  unfold run
  rw [same]

end Engine

/-- The interpreter remembers its settings, and no more. -/
theorem Interpreter.remembers_settings (settings : Settings) :
    (backendWith settings).Remembers Engine.settings where
  option name value same := Engine.set_congr same name value
  call r message observed same := Engine.run_congr same r message _ observed
  kept _ _ _ _ := rfl

theorem FastPath.remembers_settings : backend.Remembers Engine.settings where
  option name value same := Engine.set_congr same name value
  call {s s'} r message observed same := by
    show (execute s r message observed).1 = (execute s' r message observed).1
    unfold execute
    split
    · exact Engine.run_congr same r message _ observed
    · rfl
  kept s r message observed := settings_execute s r message observed

theorem Echo.remembers_byteCost : backend.Remembers Engine.byteCost where
  option {s s'} name value same := by
    show (setOption s name value).1 = (setOption s' name value).1 ∧
      (setOption s name value).2.byteCost = (setOption s' name value).2.byteCost
    unfold setOption
    split
    · split
      · exact ⟨rfl, rfl⟩
      · exact ⟨rfl, same⟩
    · exact ⟨rfl, same⟩
  call {s s'} r message observed same := by
    obtain ⟨byteCost, buffer⟩ := s
    obtain ⟨byteCost', buffer'⟩ := s'
    obtain rfl : byteCost = byteCost' := same
    have hcost : cost ⟨byteCost, buffer⟩ message.code = cost ⟨byteCost, buffer'⟩ message.code := rfl
    show (execute ⟨byteCost, buffer⟩ message).1 = (execute ⟨byteCost, buffer'⟩ message).1
    unfold execute
    rw [hcost]
    split <;> rfl
  kept s r message observed := by
    show (execute s message).2.byteCost = s.byteCost
    unfold execute
    split <;> rfl

/-- No state leaks between calls. Whatever sequence of options and calls an instance of the
interpreter, of the fast backend or of the echo backend gets, with any messages, revisions and
observers, and whatever has become of the calls before: each call has the status, the gas left, the
output and the steps that a new instance would give it which has received the options before this
call and nothing else. The interpreter may start with any settings. -/
theorem Backend.calls_leave_nothing :
    (∀ settings, (Interpreter.backendWith settings).Isolated) ∧ FastPath.backend.Isolated ∧
      Echo.backend.Isolated :=
  ⟨fun settings => (Interpreter.remembers_settings settings).isolated,
    FastPath.remembers_settings.isolated, Echo.remembers_byteCost.isolated⟩

end EvmDispatch
