/-!
# Coloured terminal text

Output to a terminal is painted with the standard escape sequences. Whether it is painted at all is
decided once, from three environment variables and from where the output goes.
-/

namespace EvmDispatch.Text

/-- A way to paint a piece of text. -/
inductive Paint where
  /-- Bold cyan, for headings. -/
  | heading
  /-- Bold green, for success. -/
  | good
  /-- Bold yellow, for warnings. -/
  | caution
  /-- Bold red, for errors. -/
  | bad
  /-- Dimmed, for labels. -/
  | faint
deriving DecidableEq, Repr

/-- The parameters of the escape sequence. -/
def Paint.parameters : Paint → String
  | .heading => "1;36"
  | .good => "1;32"
  | .caution => "1;33"
  | .bad => "1;31"
  | .faint => "2"

/-- Paints a text if colours are on. -/
def paint (colours : Bool) (p : Paint) (text : String) : String :=
  if colours then "\x1b[" ++ p.parameters ++ "m" ++ text ++ "\x1b[0m" else text

/-- Whether colours are on. A variable counts as set to no by the value `0`. The variable that
forces colours wins over the one that forbids them, and without either colours go to terminals
unless they are switched off. -/
def coloursWanted (force forbid switch : Option String) (isTerminal : Bool) : Bool :=
  if force.any (· != "0") then true
  else if forbid.isSome then false
  else switch.all (· != "0") && isTerminal

end EvmDispatch.Text
