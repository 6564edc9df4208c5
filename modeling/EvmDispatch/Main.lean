import EvmDispatch.CommandLine.Program

/-!
# The executable

The outermost layer: it looks at the environment, reads the files that the command line names, has
the program decide what to do, and writes the result. It is linked with no loader of libraries, so
there is no library at any path.
-/

namespace EvmDispatch.Executable

/-- The number of a fault. Some calls of the system report it with its sign turned. -/
def faultNumber (code : UInt32) : UInt32 := if code < 0x80000000 then code else 0 - code

/-- The reason behind an error of the system. -/
def readError : IO.Error → ReadError
  | .noFileOrDirectory _ _ _ => .notFound
  | .inappropriateType _ code _ =>
    if faultNumber code = 20 then .notADirectory else .isADirectory
  | .invalidArgument _ code text =>
    if faultNumber code = 36 then .nameTooLong else .other text
  | .permissionDenied _ _ _ => .other "Permission denied (os error 13)"
  | e => .other (toString e)

/-- Reads the file at a path as text. -/
def readText (path : String) : IO (Except ReadError String) := do
  try
    match String.fromUTF8? (← IO.FS.readBinFile path) with
    | some text => return .ok text
    | none => return .error .notText
  catch e => return .error (readError e)

/-- The paths of the files that a command line names. -/
def namedFiles : CommandLine.Invocation → List String
  | .run given => given.values .config ++ given.values .codeFile
  | .list given => given.values .config
  | _ => []

/-- The surroundings in which there are only the files at some paths. -/
def surroundings (files : List (String × Except ReadError String)) : Surroundings where
  readText := fun path => ((files.find? (·.1 == path)).map (·.2)).getD (.error .notFound)
  parseConfig := ConfigFile.parse?
  openLibrary := fun _ => .error "no loader of libraries"

end EvmDispatch.Executable

open EvmDispatch in
/-- Carries out a command line. -/
def main (words : List String) : IO UInt32 := do
  let paths := Executable.namedFiles (CommandLine.read words)
  let files ← paths.mapM fun path => return (path, ← Executable.readText path)
  let stdout ← IO.getStdout
  let colours := Text.coloursWanted (← IO.getEnv "CLICOLOR_FORCE") (← IO.getEnv "NO_COLOR")
    (← IO.getEnv "CLICOLOR") (← stdout.isTty)
  let result := CommandLine.execute (Executable.surroundings files) colours words
  stdout.putStr result.stdout
  (← IO.getStderr).putStr result.stderr
  return UInt32.ofNat result.exit
