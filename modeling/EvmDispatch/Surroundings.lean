import EvmDispatch.ConfigFile
import EvmDispatch.Library

/-!
# The surroundings of the program

What the program needs from the outside: the texts of files, libraries, and a reader for the texts
of configuration files. Files and libraries are looked up by path and may be missing for a number of
reasons, each of which has its message.
-/

namespace EvmDispatch

/-- Why a file could not be read as text. -/
inductive ReadError where
  /-- There is no such file. -/
  | notFound
  /-- A piece in the middle of the path is no directory. -/
  | notADirectory
  /-- The path is that of a directory. -/
  | isADirectory
  /-- The file is no text. -/
  | notText
  /-- The path, or a name in it, has more bytes than a path or a name can have. -/
  | nameTooLong
  /-- The path holds a null character. -/
  | nullInPath
  /-- Something else went wrong. -/
  | other (text : String)
deriving DecidableEq, Repr

/-- The message that a user sees. -/
def ReadError.message : ReadError → String
  | notFound => "No such file or directory (os error 2)"
  | notADirectory => "Not a directory (os error 20)"
  | isADirectory => "Is a directory (os error 21)"
  | nameTooLong => "File name too long (os error 36)"
  | notText => "stream did not contain valid UTF-8"
  | nullInPath => "file name contained an unexpected NUL byte"
  | other text => text

/-- What is found at the paths, and how configuration files are read. -/
structure Surroundings where
  /-- The text of the file at a path. -/
  readText : String → Except ReadError String
  /-- The configuration file that a text holds, if it is one. -/
  parseConfig : String → Option ConfigFile
  /-- The library at a path, or why there is none. -/
  openLibrary : String → Except String Library

/-- Registers the backend of the library at a path. -/
def Registry.load (r : Registry) (surroundings : Surroundings) (path : String) (log : Log) :
    Except LoadError LoadedBackend × Registry × Log :=
  match surroundings.openLibrary path with
  | .ok library => r.insertLibrary path library log
  | .error reason => (.error (.open path reason), r, log)

end EvmDispatch
