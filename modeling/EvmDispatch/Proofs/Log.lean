import EvmDispatch.Log

/-!
# What the log tells of instances

Notices and lines of a trace stand in the log between the events of instances and have no bearing
on them. In particular the number of calls of a constructor, and with it the identity of the next
instance, depends on the events of instances only.
-/

namespace EvmDispatch

/-- Whether an event is one of an instance, or of the attempt to make one. -/
def Event.isOfInstance : Event → Bool
  | notice _ _ => false
  | line _ => false
  | _ => true

namespace Log

/-- The events of instances so far, oldest first. -/
def instanceEvents (log : Log) : List Event := log.events.toList.filter Event.isOfInstance

/-- How many of some events are calls of a constructor. -/
def attemptsIn (origin : Origin) (events : List Event) : Nat :=
  events.countP fun e => e.attempt?.any (·.origin == origin)

theorem toList_add (log : Log) (e : Event) :
    (log.add e).events.toList = log.events.toList ++ [e] := by
  simp [add]

theorem toList_addAll (log : Log) (events : List Event) :
    (log.addAll events).events.toList = log.events.toList ++ events := by
  unfold addAll
  induction events generalizing log with
  | nil => simp
  | cons e rest ih => rw [List.foldl_cons, ih, toList_add, List.append_assoc, List.singleton_append]

theorem instanceEvents_addAll (log : Log) (events : List Event) :
    (log.addAll events).instanceEvents =
      log.instanceEvents ++ events.filter Event.isOfInstance := by
  rw [instanceEvents, toList_addAll, List.filter_append, instanceEvents]

theorem instanceEvents_add {log : Log} {e : Event} (h : e.isOfInstance = true) :
    (log.add e).instanceEvents = log.instanceEvents ++ [e] := by
  rw [instanceEvents, toList_add, List.filter_append, List.filter_cons_of_pos h, List.filter_nil,
    instanceEvents]

@[simp] theorem instanceEvents_add_notice (log : Log) (level : Level) (text : String) :
    (log.add (.notice level text)).instanceEvents = log.instanceEvents := by
  rw [instanceEvents, toList_add, List.filter_append, List.filter_cons_of_neg Bool.false_ne_true,
    List.filter_nil, List.append_nil, instanceEvents]

theorem instanceEvents_addAll_lines (log : Log) (lines : List String) :
    (log.addAll (lines.map .line)).instanceEvents = log.instanceEvents := by
  rw [instanceEvents_addAll, List.filter_eq_nil_iff.mpr, List.append_nil]
  intro e he
  obtain ⟨text, -, rfl⟩ := List.mem_map.mp he
  exact Bool.false_ne_true

/-- The log counts the calls of a constructor by the events of instances alone. -/
theorem attempts_eq (log : Log) (origin : Origin) :
    log.attempts origin = attemptsIn origin log.instanceEvents := by
  have hfoldl : ∀ (events : List Event) (n : Nat),
      events.foldl (fun n e => if e.attempt?.any (·.origin == origin) then n + 1 else n) n =
        n + attemptsIn origin events := by
    intro events
    induction events with
    | nil => simp [attemptsIn]
    | cons e rest ih =>
      intro n
      rw [List.foldl_cons, ih, attemptsIn, attemptsIn, List.countP_cons]
      by_cases h : e.attempt?.any (·.origin == origin) = true
      · rw [if_pos h, if_pos h, Nat.add_right_comm, Nat.add_assoc]
      · rw [if_neg h, if_neg h, Nat.add_zero]
  rw [attempts, ← Array.foldl_toList, hfoldl, Nat.zero_add, attemptsIn, attemptsIn, instanceEvents,
    List.countP_filter]
  refine List.countP_congr fun e _ => ?_
  cases e <;> simp [Event.attempt?, Event.isOfInstance]

/-- The identity of the next instance does not depend on what else is in the log. -/
theorem nextId_congr {log log' : Log} {events : List Event} {origin : Origin}
    (h : log'.instanceEvents = log.instanceEvents ++ events) (none : attemptsIn origin events = 0) :
    log'.nextId origin = log.nextId origin := by
  rw [nextId, nextId, attempts_eq, attempts_eq, h, attemptsIn, List.countP_append]
  rw [attemptsIn] at none
  rw [none, Nat.add_zero, attemptsIn]

/-- The lines of traces so far, oldest first. -/
def lines (log : Log) : List String := log.events.toList.filterMap Event.line?

theorem lines_add {log : Log} {e : Event} (h : e.line? = none) : (log.add e).lines = log.lines := by
  rw [lines, toList_add, List.filterMap_append, List.filterMap_cons_none h, List.filterMap_nil,
    List.append_nil, lines]

theorem lines_addAll (log : Log) (events : List Event) :
    (log.addAll events).lines = log.lines ++ events.filterMap Event.line? := by
  rw [lines, toList_addAll, List.filterMap_append, lines]

theorem lines_addAll_lines (log : Log) (texts : List String) :
    (log.addAll (texts.map .line)).lines = log.lines ++ texts := by
  rw [lines_addAll, List.filterMap_map]
  exact congrArg (log.lines ++ ·) (List.filterMap_some)

end Log

end EvmDispatch
