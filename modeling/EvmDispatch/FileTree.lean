import EvmDispatch.Surroundings

/-!
# Files in memory

A directory and what lies below it, as a value. Paths are followed from the directory as on a disk:
a single dot and an empty piece stand for no step, two dots lead upwards, and a step from a file
leads nowhere, not even if it stands for no step. Of what lies outside the directory only the
directories above it are known, so all other paths that lead there find nothing. Names and paths are
as long as a disk allows. A name that is too long shows only when a directory is asked for it, so of
two faults among the names the one in front counts; a path that is too long is refused at once.
-/

namespace EvmDispatch

/-- What a path may lead to. -/
inductive FileNode where
  /-- A text. -/
  | text (content : String)
  /-- A file that is no text. -/
  | binary
  /-- A file that is no text, and a library. -/
  | library (content : Library)

/-- The files below a directory, by the names of the directories that they lie in, followed by their
own. Directories exist by the files in them, or by being listed as such. -/
structure FileTree where
  /-- The files. -/
  files : List (List String × FileNode) := []
  /-- Directories that may hold no files. -/
  directories : List (List String) := []

namespace FileTree

/-- The file of that position. -/
def file? (t : FileTree) (position : List String) : Option FileNode :=
  (t.files.find? (·.1 == position)).map (·.2)

/-- Whether there is a directory at that position. -/
def isDirectory (t : FileTree) (position : List String) : Bool :=
  position.isEmpty || t.directories.any position.isPrefixOf ||
    t.files.any fun f => position.isPrefixOf f.1 && position != f.1

/-- The number of bytes that a name in a directory may have. -/
def nameLimit : Nat := 255

/-- The number of bytes that a path may have. -/
def pathLimit : Nat := 4095

/-- Why a directory has no file of a name that it does not know. -/
def missing (name : String) : ReadError :=
  if nameLimit < name.utf8ByteSize then .nameTooLong else .notFound

/-- Follows steps from a directory above all positions, from which only upward steps are known. -/
def climb : List (List Char) → Except ReadError Unit
  | [] => .ok ()
  | piece :: rest =>
    if Path.isIdle piece || piece == ['.', '.'] then climb rest
    else .error (missing (String.ofList piece))

/-- The position that steps lead to from a position; none for a directory above all positions. -/
def walk (t : FileTree) (position : List String) :
    List (List Char) → Except ReadError (Option (List String))
  | [] => .ok (some position)
  | piece :: rest =>
    let name := String.ofList piece
    if !t.isDirectory position then
      .error (if (t.file? position).isSome then .notADirectory else .notFound)
    else if Path.isIdle piece then t.walk position rest
    else if piece == ['.', '.'] then
      if position.isEmpty then (climb rest).map fun _ => none
      else t.walk position.dropLast rest
    else if nameLimit < name.utf8ByteSize then .error .nameTooLong
    else t.walk (position ++ [name]) rest

/-- What a path leads to; none for a directory. -/
def find (t : FileTree) (path : String) : Except ReadError (Option FileNode) :=
  let pieces := Path.pieces path.toList
  if path.isEmpty then .error .notFound
  else if path.toList.contains '\x00' then .error .nullInPath
  else if pathLimit < path.utf8ByteSize then .error .nameTooLong
  else if Path.isAbsolute path then (climb pieces).map fun _ => none
  else
    match t.walk [] pieces with
    | .error e => .error e
    | .ok none => .ok none
    | .ok (some position) =>
      match t.file? position with
      | some node => .ok (some node)
      | none => if t.isDirectory position then .ok none else .error .notFound

/-- The text of the file at a path. -/
def readText (t : FileTree) (path : String) : Except ReadError String :=
  match t.find path with
  | .error e => .error e
  | .ok none => .error .isADirectory
  | .ok (some (.text content)) => .ok content
  | .ok (some _) => .error .notText

/-- The path without a null character at its end, if there is one. -/
def dropTerminator (path : String) : String :=
  if path.toList.getLast? == some '\x00' then String.ofList path.toList.dropLast else path

/-- The library at a path. A null character at the end only ends the path. The empty path stands for
the running program, which exports nothing. -/
def openLibrary (t : FileTree) (path : String) : Except String Library :=
  if (dropTerminator path).isEmpty then .ok { constructor? := fun _ => none }
  else match t.find (dropTerminator path) with
  | .error e => .error e.message
  | .ok (some (.library content)) => .ok content
  | .ok (some _) => .error "invalid ELF header"
  | .ok none => .error "cannot read file data: Is a directory"

/-- The surroundings in which there is nothing but these files. -/
def surroundings (t : FileTree) : Surroundings where
  readText := t.readText
  parseConfig := ConfigFile.parse?
  openLibrary := t.openLibrary

end FileTree

end EvmDispatch
