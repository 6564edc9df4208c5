import EvmDispatch.Json.Fields
import EvmDispatch.Text.Blank

/-!
# Protocol revisions and feature schedules

The instruction set and its prices change from one revision of the protocol to the next. A caller
does not name the revision: it describes the chain by five feature flags, and the newest feature
that is switched on decides. A schedule is expected to switch on every older feature too, but
nothing depends on that.
-/

namespace EvmDispatch

/-- The protocol revisions, oldest first. -/
inductive Revision where
  /-- The first revision. -/
  | frontier
  /-- Adds calls that keep the caller. -/
  | homestead
  /-- Makes input and output dearer. -/
  | tangerineWhistle
  /-- Clears empty accounts. -/
  | spuriousDragon
  /-- Adds reverting with output. -/
  | byzantium
  /-- Adds shifts and creation at a chosen address. -/
  | constantinople
deriving DecidableEq, Repr

namespace Revision

/-- All revisions, oldest first. -/
def all : List Revision :=
  [.frontier, .homestead, .tangerineWhistle, .spuriousDragon, .byzantium, .constantinople]

/-- The newest revision. -/
def latest : Revision := .constantinople

/-- The number of older revisions, which also stands for the revision at the plugin boundary. -/
def rank : Revision → Nat
  | frontier => 0
  | homestead => 1
  | tangerineWhistle => 2
  | spuriousDragon => 3
  | byzantium => 4
  | constantinople => 5

instance : LE Revision := ⟨fun a b => a.rank ≤ b.rank⟩

instance : LT Revision := ⟨fun a b => a.rank < b.rank⟩

instance (a b : Revision) : Decidable (a ≤ b) := inferInstanceAs (Decidable (a.rank ≤ b.rank))

instance (a b : Revision) : Decidable (a < b) := inferInstanceAs (Decidable (a.rank < b.rank))

/-- The order by age, as a comparison. -/
def compare (a b : Revision) : Ordering := Ord.compare a.rank b.rank

/-- The name in configuration files, on the command line and in results. -/
def name : Revision → String
  | frontier => "frontier"
  | homestead => "homestead"
  | tangerineWhistle => "tangerine_whistle"
  | spuriousDragon => "spurious_dragon"
  | byzantium => "byzantium"
  | constantinople => "constantinople"

/-- The number that crosses the plugin boundary. -/
def raw (r : Revision) : Int := r.rank

/-- The revision behind a number, if there is one. -/
def ofRaw? (n : Int) : Option Revision := all.find? fun r => r.raw == n

/-- The revision of exactly that name. -/
def ofName? (name : String) : Option Revision := all.find? fun r => r.name == name

/-- A text that names no revision. -/
structure Unknown where
  /-- The text as it was given. -/
  text : String
deriving DecidableEq, Repr

/-- The message that a user sees. -/
def Unknown.message (e : Unknown) : String :=
  "unknown revision '" ++ e.text ++ "' (expected one of: " ++
    ", ".intercalate (all.map name) ++ ")"

/-- A character as it is compared with a name: capitals of ASCII are lowered, and a hyphen stands
for an underscore. -/
def foldChar (c : Char) : Char :=
  if c == '-' then '_' else c.toLower

/-- Reads a name that a user has typed, in any case, with hyphens or underscores and with white
space around it. -/
def parse (text : String) : Except Unknown Revision :=
  match ofName? (String.ofList ((Text.trim text.toList).map foldChar)) with
  | some r => .ok r
  | none => .error ⟨text⟩

/-- A revision in results. -/
def toJson (r : Revision) : Json := .text r.name

/-- A revision in a configuration. Here the name must be exact. -/
def ofJson? (value : Json) : Option Revision := do
  ofName? (← Json.alternative? value)

end Revision

/-- The features that a chain has switched on. -/
structure FeatureSchedule where
  /-- Calls that keep the caller. -/
  delegateCall : Bool := false
  /-- The dearer prices of input and output. -/
  repricing : Bool := false
  /-- The clearing of empty accounts. -/
  stateClearing : Bool := false
  /-- Reverting with output. -/
  revert : Bool := false
  /-- Creation at a chosen address. -/
  create2 : Bool := false
deriving DecidableEq, Repr

namespace FeatureSchedule

/-- No feature is switched on. -/
def frontier : FeatureSchedule := {}

/-- The features of a revision: its own and all older ones. -/
def ofRevision (r : Revision) : FeatureSchedule where
  delegateCall := decide (Revision.homestead ≤ r)
  repricing := decide (Revision.tangerineWhistle ≤ r)
  stateClearing := decide (Revision.spuriousDragon ≤ r)
  revert := decide (Revision.byzantium ≤ r)
  create2 := decide (Revision.constantinople ≤ r)

/-- The revision that brought the newest feature of the schedule. -/
def revision (s : FeatureSchedule) : Revision :=
  if s.create2 then .constantinople
  else if s.revert then .byzantium
  else if s.stateClearing then .spuriousDragon
  else if s.repricing then .tangerineWhistle
  else if s.delegateCall then .homestead
  else .frontier

/-- The names of the fields, oldest feature first. -/
def fields : List String :=
  ["have_delegate_call", "eip150_mode", "eip158_mode", "have_revert", "have_create2"]

/-- The flags, oldest feature first. -/
def flags (s : FeatureSchedule) : List Bool :=
  [s.delegateCall, s.repricing, s.stateClearing, s.revert, s.create2]

/-- A schedule in results. -/
def toJson (s : FeatureSchedule) : Json :=
  Json.ofMembers (fields.zip (s.flags.map Json.bool))

/-- A schedule in a configuration. -/
def ofJson? (value : Json) : Option FeatureSchedule := do
  match ← (← Json.record? fields false value).mapM (Json.field? false Json.bool?) with
  | [delegateCall, repricing, stateClearing, revert, create2] =>
    some { delegateCall, repricing, stateClearing, revert, create2 }
  | _ => none

end FeatureSchedule

end EvmDispatch
