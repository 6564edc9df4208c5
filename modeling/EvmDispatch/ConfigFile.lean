import EvmDispatch.Json.Fields
import EvmDispatch.Json.Printer
import EvmDispatch.Json.Reader
import EvmDispatch.Path

/-!
# Configuration files

A configuration file is a JSON record, which is closed. Paths of libraries in it are meant from its
directory.
-/

namespace EvmDispatch

/-- The content of a configuration file. -/
structure ConfigFile where
  /-- The name of the default. -/
  vm : Option String := none
  /-- The options in their written form. -/
  options : List String := []
  /-- The paths of libraries. -/
  load : List String := []
  /-- Whether tracing is switched on. -/
  trace : Bool := false
  /-- The directory of the file, if it has been read from one. -/
  directory : Option String := none
deriving DecidableEq, Repr

namespace ConfigFile

/-- The names of the fields. -/
def fields : List String := ["vm", "options", "load", "trace"]

/-- A name or null. -/
def name? : Json → Option (Option String)
  | .null => some none
  | value => value.text?.map some

/-- The content of a configuration file. Its record is closed. -/
def ofJson? (value : Json) : Option ConfigFile := do
  match ← Json.record? fields true value with
  | [vm, options, load, trace] =>
    let vm ← Json.field? none name? vm
    let options ← Json.field? [] Json.texts? options
    let load ← Json.field? [] Json.texts? load
    let trace ← Json.field? false Json.bool? trace
    some { vm, options, load, trace }
  | _ => none

/-- A configuration file in results. -/
def toJson (file : ConfigFile) : Json :=
  Json.ofMembers [("vm", Json.ofOption (file.vm.map .text)),
    ("options", .array (file.options.map .text)), ("load", .array (file.load.map .text)),
    ("trace", .bool file.trace)]

/-- The configuration file that a text holds, if it is one. -/
def parse? (text : String) : Option ConfigFile := (Json.read? text).bind ofJson?

/-- The path that a path in the file means. -/
def resolve (file : ConfigFile) (path : String) : String :=
  match file.directory with
  | some base => Path.resolve base path
  | none => path

end ConfigFile

end EvmDispatch
