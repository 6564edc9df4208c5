import EvmDispatch.Address
import EvmDispatch.Revision
import EvmDispatch.Text.Numeral

/-!
# Arguments of the command line

The arguments, the names they have, and the values they take. Each belongs to one of the commands,
or to all of them. An argument that belongs to all of them may also stand in front of the command.
-/

namespace EvmDispatch.CommandLine

/-- What a command line may say. -/
inductive Argument where
  /-- Names the default backend. -/
  | vm
  /-- Gives an option. -/
  | vmOption
  /-- Names a library to load. -/
  | vmLoad
  /-- Names a configuration file. -/
  | config
  /-- Asks for a trace. -/
  | trace
  /-- Asks for no notices. -/
  | quiet
  /-- Gives the code. -/
  | code
  /-- Names a file with the code. -/
  | codeFile
  /-- Gives the call data. -/
  | input
  /-- Gives the gas. -/
  | gas
  /-- Names the revision. -/
  | revision
  /-- Gives the call depth. -/
  | depth
  /-- Gives the number of the block. -/
  | number
  /-- Gives the time of the block. -/
  | timestamp
  /-- Gives the account that calls. -/
  | caller
  /-- Gives the account whose code runs. -/
  | callee
  /-- Asks for a call that must not change the state. -/
  | static
  /-- Asks for a record. -/
  | json
  /-- Asks for the version. -/
  | version
  /-- Asks for help. -/
  | help
deriving DecidableEq, Repr

namespace Argument

/-- The name after two hyphens. -/
def long : Argument → String
  | vm => "vm"
  | vmOption => "vm-option"
  | vmLoad => "vm-load"
  | config => "config"
  | trace => "trace"
  | quiet => "quiet"
  | code => "code"
  | codeFile => "code-file"
  | input => "input"
  | gas => "gas"
  | revision => "revision"
  | depth => "depth"
  | number => "number"
  | timestamp => "timestamp"
  | caller => "caller"
  | callee => "callee"
  | static => "static"
  | json => "json"
  | version => "version"
  | help => "help"

/-- The letter after one hyphen. -/
def short? : Argument → Option Char
  | quiet => some 'q'
  | code => some 'c'
  | input => some 'i'
  | gas => some 'g'
  | revision => some 'r'
  | version => some 'V'
  | help => some 'h'
  | _ => none

/-- Whether a value belongs to the argument. -/
def takesValue : Argument → Bool
  | trace | quiet | static | json | version | help => false
  | _ => true

/-- Whether the argument may be given more than once. -/
def isRepeatable : Argument → Bool
  | vmOption | vmLoad => true
  | _ => false

/-- Whether a negative number after the argument is its value. -/
def allowsNegative : Argument → Bool
  | number | timestamp => true
  | _ => false

/-- Whether the argument takes the value. -/
def admits (a : Argument) (value : String) : Bool :=
  match a with
  | gas | depth => (Text.unsigned64? value).isSome
  | number | timestamp => (Text.signed64? value).isSome
  | revision => (Revision.parse value).toOption.isSome
  | caller | callee => (Address.parse value).toOption.isSome
  | config | vmLoad | codeFile => !value.isEmpty
  | _ => true

end Argument

/-- The parts of a command line: what stands in front of the command, and what follows it. -/
inductive Scope where
  /-- In front of the command. -/
  | top
  /-- After the command that runs code. -/
  | run
  /-- After the command that lists the backends. -/
  | list
deriving DecidableEq, Repr

namespace Scope

/-- The arguments that may stand everywhere. -/
def shared : List Argument :=
  [.vm, .vmOption, .vmLoad, .config, .trace, .quiet, .version, .help]

/-- The arguments of one command. -/
def own : Scope → List Argument
  | top => []
  | run =>
    [.code, .codeFile, .input, .gas, .revision, .depth, .number, .timestamp, .caller, .callee,
      .static, .json]
  | list => [.json]

/-- The arguments that may stand in this part. -/
def arguments (s : Scope) : List Argument := shared ++ s.own

/-- The argument of a name after two hyphens. -/
def long? (s : Scope) (name : List Char) : Option Argument :=
  s.arguments.find? fun a => a.long.toList == name

/-- The argument of a letter after one hyphen. -/
def short? (s : Scope) (letter : Char) : Option Argument :=
  s.arguments.find? fun a => a.short? == some letter

/-- The command of a name. -/
def command? (name : String) : Option Scope :=
  if name == "run" then some run else if name == "list" then some list else none

end Scope

end EvmDispatch.CommandLine
