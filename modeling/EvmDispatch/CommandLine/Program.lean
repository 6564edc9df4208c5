import EvmDispatch.Command.Configure
import EvmDispatch.Command.List
import EvmDispatch.Command.Run
import EvmDispatch.CommandLine.Grammar

/-!
# The program

What the program does for a command line: it configures the host, makes its factory that of the
process, and carries out the command. Its result is what it writes and its exit code. Notices and
traces go to the error output in the order in which they arise.
-/

namespace EvmDispatch.CommandLine

/-- What the program leaves behind. -/
structure Result where
  /-- The exit code. -/
  exit : Nat
  /-- What it has written to the output. -/
  stdout : String := ""
  /-- What it has written to the error output. -/
  stderr : String := ""
deriving DecidableEq, Repr

/-- What a command has come to: an exit code and an output, or the messages of an error. -/
abbrev Answer := Except (List String) (Nat × String)

/-- The name of the program. -/
def programName : String := "evmhost"

/-- The version of the program. -/
def programVersion : String := "0.1.0"

/-- The text that shows the version. -/
def versionText : Scope → String
  | .top => programName ++ " " ++ programVersion ++ "\n"
  | .run => programName ++ "-run " ++ programVersion ++ "\n"
  | .list => programName ++ "-list " ++ programVersion ++ "\n"

/-- The text that shows how the program is used. -/
def usageText : String :=
  "Usage: " ++ programName ++ " [OPTIONS] run|list [OPTIONS]\n"

/-- What a command line says about the host. -/
def hostRequest (g : Given) : Command.HostRequest where
  config := g.value? .config
  loads := g.values .vmLoad
  options := g.values .vmOption
  vm := g.value? .vm
  trace := g.has .trace

/-- What a command line says about the call, given the code and the call data. -/
def runRequest (g : Given) (code input : Bytes) : Command.RunRequest where
  code := code
  input := input
  gas := ((g.value? .gas).bind Text.unsigned64?).getD 1000000
  revision := ((g.value? .revision).bind fun v => (Revision.parse v).toOption).getD .latest
  depth := ((g.value? .depth).bind Text.unsigned64?).getD 0
  number := ((g.value? .number).bind Text.signed64?).getD 0
  timestamp := ((g.value? .timestamp).bind Text.signed64?).getD 0
  caller := ((g.value? .caller).bind fun v => (Address.parse v).toOption).getD .zero
  callee := ((g.value? .callee).bind fun v => (Address.parse v).toOption).getD .zero
  isStatic := g.has .static

/-- The line of an event on the error output, if it has one. Errors are shown even if the user wants
no notices. -/
def eventLine? (colours quiet : Bool) : Event → Option String
  | .line text => some (text ++ "\n")
  | .notice .error text =>
    some (Text.paint colours .bad Level.error.tag ++ " " ++ text ++ "\n")
  | .notice .warning text =>
    if quiet then none
    else some (Text.paint colours .caution Level.warning.tag ++ " " ++ text ++ "\n")
  | .notice .info text => if quiet then none else some (Level.info.tag ++ " " ++ text ++ "\n")
  | _ => none

/-- What the program leaves behind after a command. -/
def conclude (colours quiet : Bool) (answer : Answer) (log : Log) : Result :=
  let notices := String.join (log.events.toList.filterMap (eventLine? colours quiet))
  match answer with
  | .ok (exit, stdout) => { exit, stdout, stderr := notices }
  | .error chain =>
    { exit := 1
      stderr := notices ++ Text.paint colours .bad "error:" ++ " " ++ ": ".intercalate chain ++
        "\n" }

/-- The factory that a command line asks for, as that of the process. -/
def prepare (surroundings : Surroundings) (g : Given) (log : Log) :
    Except (List String) Factory × Log :=
  match Command.configure surroundings (hostRequest g) log with
  | (.error e, log) => (.error e.chain, log)
  | (.ok c, log) =>
    match (Installation.install {} c.finalize).1 with
    | .error e => (.error e.chain, log)
    | .ok f => (.ok f, log)

/-- Runs code. -/
def run (surroundings : Surroundings) (colours : Bool) (g : Given) (f : Factory) (log : Log) :
    Answer × Log :=
  match Command.loadCode surroundings (g.value? .code) (g.value? .codeFile) with
  | .error e => (.error e.chain, log)
  | .ok code =>
    match Hex.decode ((g.value? .input).getD "") with
    | .error e => (.error [e.message], log)
    | .ok input =>
      match Command.run f (runRequest g code input) log with
      | (.error e, log) => (.error e.chain, log)
      | (.ok report, log) =>
        let text := if g.has .json then report.toJson.pretty ++ "\n" else report.text colours
        (.ok (report.exitCode, text), log)

/-- Lists the backends. -/
def list (colours : Bool) (g : Given) (f : Factory) (log : Log) : Answer × Log :=
  let listing := Command.Listing.ofFactory f
  let text := if g.has .json then listing.toJson.pretty ++ "\n" else listing.text colours
  (.ok (0, text), log)

/-- Configures the host and carries out a command. -/
def carryOut (surroundings : Surroundings) (colours : Bool) (g : Given)
    (command : Factory → Log → Answer × Log) : Result :=
  match prepare surroundings g {} with
  | (.error chain, log) => conclude colours (g.has .quiet) (.error chain) log
  | (.ok f, log) =>
    let (answer, log) := command f log
    conclude colours (g.has .quiet) answer log

/-- What the program does for a command line. -/
def execute (surroundings : Surroundings) (colours : Bool) (words : List String) : Result :=
  match read words with
  | .run g => carryOut surroundings colours g (run surroundings colours g)
  | .list g => carryOut surroundings colours g (list colours g)
  | .version s => { exit := 0, stdout := versionText s }
  | .help => { exit := 0, stdout := usageText }
  | .misuse => { exit := 2, stderr := usageText }

end EvmDispatch.CommandLine
