import TickMachine.CommandLine.Files
import TickMachine.CommandLine.Path

/-! # Directories

A directory of files as a value, and what reading and writing at a path do to it. The directory has
no directories in it, and those around it hold only what is written to them. -/

namespace TickMachine.CommandLine

/-- The contents of files, each under the shortest path to it. -/
structure Directory where
  files : List (String × ByteArray) := []
  deriving Inhabited

/-- What a path leads to: a directory, or what may have a name in one. -/
inductive Location
  | directory
  | named (place : Place) (name : String)
  deriving DecidableEq, Repr

namespace Directory

/-- The directory without files. -/
def empty : Directory := {}

/-- The content of a file. -/
def find? (directory : Directory) (file : String) : Option ByteArray := directory.files.lookup file

/-- The directory with a file of the given content. -/
def put (directory : Directory) (file : String) (content : ByteArray) : Directory where
  files := (file, content) :: directory.files.filter (·.1 != file)

/-- The content of the file that has a name in a place, if there is one. -/
def look (directory : Directory) (place : Place) (name : String) :
    Except FileError (Option ByteArray) :=
  if Path.maxPartBytes < name.utf8ByteSize then .error .nameTooLong
  else .ok (directory.find? (place.pathTo name))

/-- Follows a part of a path that has to lead to a directory. A file is none. -/
def enter (directory : Directory) (place : Place) (part : String) : Except FileError Place :=
  if part = "." then .ok place
  else if part = ".." then .ok place.parent
  else do
    match ← directory.look place part with
    | some _ => .error .notDirectory
    | none => .error .notFound

/-- Follows a path up to its last part. -/
def locate (directory : Directory) (path : Path) : Except FileError Location := do
  let place ← path.parts.dropLast.foldlM directory.enter path.start
  match path.parts.getLast? with
  | none => return .directory
  | some part => if part = "." ∨ part = ".." then return .directory else return .named place part

/-- Follows the path that a text spells. -/
def locateText (directory : Directory) (text : String) : Except FileError (Path × Location) := do
  if text = "" then .error .notFound
  else if Path.maxBytes < text.utf8ByteSize then .error .nameTooLong
  else
    let path := Path.ofString text
    return (path, ← directory.locate path)

/-- Reads the file at a path. A slash at the end asks for a directory. -/
def read (directory : Directory) (text : String) : Except FileError ByteArray := do
  match ← directory.locateText text with
  | (_, .directory) => .error .isDirectory
  | (path, .named place name) =>
    match ← directory.look place name with
    | none => .error .notFound
    | some content => if path.slashed then .error .notDirectory else .ok content

/-- Writes the file at a path. No file can have a name with a slash at its end, whether the rest of
the name is that of a file or not. -/
def write (directory : Directory) (text : String) (content : ByteArray) :
    Except FileError Directory := do
  match ← directory.locateText text with
  | (_, .directory) => .error .isDirectory
  | (path, .named place name) =>
    if path.slashed then .error .isDirectory
    else
      let _ ← directory.look place name
      return directory.put (place.pathTo name) content

/-- Reading and writing in a directory that is kept as a state. -/
def access : FileAccess (StateM Directory) where
  read path := do return (← get).read path
  write path content := do
    match (← get).write path content with
    | .error error => return .error error
    | .ok directory =>
      set directory
      return .ok ()

end Directory

end TickMachine.CommandLine
