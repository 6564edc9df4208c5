import EvmDispatch.Path
import EvmDispatch.Registry

/-!
# Loading backends from libraries

A library exports a constructor under a symbol that follows from its file name, or else under the
bare first part of such symbols. The first of the two that is exported counts, even if it turns out
to be unusable. An instance is made to learn the name and the version of the backend, and released
at once; then the constructor is registered under the name that the backend has given itself.
-/

namespace EvmDispatch

/-- A library that has been opened. -/
structure Library where
  /-- The constructor exported under a symbol. -/
  constructor? : String → Option PluginConstructor

/-- Why a library could not be loaded. -/
inductive LoadError where
  /-- It could not be opened. -/
  | open (path reason : String)
  /-- It exports no constructor. -/
  | missingSymbol (path : String) (tried : List String)
  /-- Its constructor returned nothing that can be used. -/
  | abi (path : String) (cause : Plugin.AbiError)
deriving DecidableEq, Repr

namespace LoadError

/-- The path of the library. -/
def path : LoadError → String
  | .open path _ => path
  | missingSymbol path _ => path
  | abi path _ => path

/-- What went wrong. -/
def reason : LoadError → String
  | .open _ reason => reason
  | missingSymbol _ tried =>
    "backend constructor not found (tried " ++ ", ".intercalate tried ++ ")"
  | abi _ cause => cause.message

/-- The message that a user sees. -/
def message (e : LoadError) : String := "loading " ++ e.path ++ " failed: " ++ e.reason

/-- The message and those of its causes. -/
def chain (e : LoadError) : List String :=
  match e with
  | abi _ cause => [e.message, cause.message]
  | e => [e.message]

/-- The stable code of the error. -/
def code : LoadError → String
  | .open _ _ => "LOAD_001"
  | missingSymbol _ _ => "LOAD_002"
  | abi _ _ => "LOAD_003"

/-- The kind of error, as it is reported with the code. -/
def category (_ : LoadError) : String := "load"

end LoadError

/-- What a loaded library has turned out to hold. -/
structure LoadedBackend where
  /-- The name that the backend gives itself. -/
  name : String
  /-- Its version. -/
  version : String
  /-- The path of the library. -/
  path : String
  /-- The symbol of the constructor. -/
  symbol : String
deriving DecidableEq, Repr

namespace Library

/-- The first part of the symbols. -/
def symbolStem : String := "evmhost_create"

/-- The name of a library without the mark that the names of libraries start with. -/
def dropLibraryMark : List Char → List Char
  | 'l' :: 'i' :: 'b' :: rest => rest
  | name => name

/-- The character of a symbol for one of a file name. -/
def symbolChar (c : Char) : Char := if c == '-' || c == '.' then '_' else c

/-- The symbols under which the library at a path may export its constructor, in the order in which
they are tried. -/
def candidateSymbols (path : String) : List String :=
  match (dropLibraryMark ((Path.stem? path).getD [])).map symbolChar with
  | [] => [symbolStem]
  | name => [symbolStem ++ "_" ++ String.ofList name, symbolStem]

/-- The first of the symbols that is exported, with its constructor. -/
def findConstructor? (library : Library) (symbols : List String) :
    Option (String × PluginConstructor) :=
  symbols.findSome? fun symbol => (library.constructor? symbol).map fun c => (symbol, c)

end Library

namespace Registry

/-- Registers the backend of an opened library. The registry stays as it is if that fails. -/
def insertLibrary (r : Registry) (path : String) (library : Library) (log : Log) :
    Except LoadError LoadedBackend × Registry × Log :=
  let symbols := Library.candidateSymbols path
  match library.findConstructor? symbols with
  | none => (.error (.missingSymbol path symbols), r, log)
  | some (symbol, exported) =>
    let constructor := Constructor.ofPlugin exported
    match constructor.instantiate log with
    | (.error e, log) => (.error (.abi path e), r, log)
    | (.ok probe, log) =>
      let name := probe.backend.name
      let version := probe.backend.version
      let log := probe.release log
      let log := log.add (.notice .info ("Loaded backend " ++ name ++ " " ++ version))
      let r := r.insert name { kind := .dynamic path symbol, constructor }
      (.ok { name, version, path, symbol }, r, log)

end Registry

end EvmDispatch
