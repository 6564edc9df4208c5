/-!
# Paths

A path is a text whose pieces are separated by slashes. Nothing here looks at a disk: a path is
taken apart, shortened by its last piece, and prolonged by another path. A piece that is empty or a
single dot stands for no step, except for a dot in front of a relative path, which is a step to the
directory itself.
-/

namespace EvmDispatch.Path

/-- The pieces between the slashes, empty ones included; there is at least one. -/
def pieces : List Char → List (List Char)
  | [] => [[]]
  | '/' :: rest => [] :: pieces rest
  | c :: rest =>
    match pieces rest with
    | [] => [[c]]
    | piece :: more => (c :: piece) :: more

/-- The pieces with slashes between them. -/
def join (parts : List (List Char)) : List Char :=
  [ '/' ].intercalate parts

/-- Whether a piece stands for no step. -/
def isIdle (piece : List Char) : Bool :=
  piece.isEmpty || piece == ['.']

/-- Whether the path starts at the root. -/
def isAbsolute (path : String) : Bool :=
  path.toList.head? == some '/'

/-- The last piece that is a step, if there is one and it is not a step upwards. -/
def fileName? (path : String) : Option (List Char) :=
  match ((pieces path.toList).filter (!isIdle ·)).getLast? with
  | some name => if name == ['.', '.'] then none else some name
  | none => none

/-- The file name up to its last dot. A dot in front of the name does not count. -/
def stem? (path : String) : Option (List Char) :=
  (fileName? path).map fun name =>
    match (name.reverse.dropWhile (· != '.')).drop 1 with
    | [] => name
    | reversed => reversed.reverse

/-- Drops idle pieces at the end. The pieces come last first. -/
def dropIdle (reversed : List (List Char)) : List (List Char) :=
  reversed.dropWhile isIdle

/-- The pieces of an absolute path after the first slash, shortened by the last step. -/
def parentOfAbsolute? (body : List (List Char)) : Option (List (List Char)) :=
  match dropIdle body.reverse with
  | [] => none
  | _ :: rest => some (dropIdle rest).reverse

/-- The pieces of a relative path, shortened by the last step. The dot in front of a path is a step
of its own, so it is the last one to go. -/
def parentOfRelative? : List (List Char) → Option (List (List Char))
  | [] => none
  | first :: body =>
    match dropIdle body.reverse with
    | _ :: rest => some (first :: (dropIdle rest).reverse)
    | [] => if first.isEmpty then none else some []

/-- The path without its last step; a path of no steps has none. -/
def parent? (path : String) : Option String :=
  match path.toList with
  | '/' :: rest =>
    (parentOfAbsolute? (pieces rest)).map fun body => String.ofList ('/' :: join body)
  | cs => (parentOfRelative? (pieces cs)).map fun parts => String.ofList (join parts)

/-- The path that `path` means when it is read from the directory `base`. -/
def resolve (base path : String) : String :=
  if isAbsolute path then path
  else if base.isEmpty || base.toList.getLast? == some '/' then base ++ path
  else base ++ "/" ++ path

end EvmDispatch.Path
