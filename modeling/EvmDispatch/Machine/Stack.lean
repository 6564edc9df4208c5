import EvmDispatch.Status
import EvmDispatch.Word.Basic

/-!
# The operand stack

A stack is a list of words, topmost first, with a limit on its height. Its operations fail by a
status, and a failed operation gives no stack: the caller keeps the one it had.
-/

namespace EvmDispatch

/-- An operand stack. -/
structure Stack where
  /-- The items, topmost first. -/
  items : List Word := []
  /-- The greatest height. -/
  limit : Nat
deriving DecidableEq, Repr

namespace Stack

/-- The greatest height that any configuration allows. -/
def maxLimit : Nat := 1024

/-- The height. -/
def depth (s : Stack) : Nat := s.items.length

/-- Whether the stack holds nothing. -/
def isEmpty (s : Stack) : Bool := s.items.isEmpty

/-- The topmost item. -/
def top? (s : Stack) : Option Word := s.items.head?

/-- Puts a word on the stack. -/
def push (s : Stack) (w : Word) : Except Status Stack :=
  if s.depth < s.limit then .ok { s with items := w :: s.items } else .error .stackOverflow

/-- Takes the topmost word. -/
def pop (s : Stack) : Except Status (Word × Stack) :=
  match s.items with
  | [] => .error .stackUnderflow
  | w :: rest => .ok (w, { s with items := rest })

/-- Puts a copy of the `n`-th item from the top on the stack, counted from one. -/
def dup (s : Stack) (n : Nat) : Except Status Stack :=
  if n = 0 then .error .stackUnderflow
  else
    match s.items[n - 1]? with
    | some w => s.push w
    | none => .error .stackUnderflow

/-- The list with its items at `0` and `n` exchanged, if it has them and they are not the same. -/
def exchange? (n : Nat) : List Word → Option (List Word)
  | [] => none
  | w :: rest =>
    if n = 0 then none
    else (rest[n - 1]?).map fun deep => deep :: rest.set (n - 1) w

/-- Exchanges the topmost item and the one `n` below it. -/
def swap (s : Stack) (n : Nat) : Except Status Stack :=
  match exchange? n s.items with
  | some items => .ok { s with items }
  | none => .error .stackUnderflow

end Stack

end EvmDispatch
