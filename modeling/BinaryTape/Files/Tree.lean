import BinaryTape.Files.Access
import BinaryTape.Path

namespace BinaryTape

/-!
# Files in memory

A file tree holds the contents of files and the folders around them.  Relative
paths start in the home folder.  Its name is a single dot, which no path can
name, so the folder above it can be visited and everything in it be used, and
yet home is reached only by not leaving it.

Paths are followed piece by piece.  A piece that leads on from a file, even an
empty one behind a closing slash, asks for a folder where there is none.
-/

/-- Where something is, as the names on the way from the root. -/
abbrev Location := List String

/-- Files with their contents, and folders. -/
structure FileTree where
  files : List (Location × ByteArray)
  folders : List Location

namespace FileTree

def home : Location := ["."]

def empty : FileTree := ⟨[], [[], home]⟩

/-- What a location holds. -/
inductive Place where
  | file (location : Location)
  | folder (location : Location)

/-- What the tree has at a location. -/
def at? (tree : FileTree) (location : Location) : Option Place :=
  if tree.folders.contains location then some (.folder location)
  else if (tree.files.lookup location).isSome then some (.file location)
  else none

/-- Follow the pieces of a path. -/
def walk (tree : FileTree) : Place -> List String -> Except Fault Place
  | place, [] => .ok place
  | .file _, _ :: _ => .error .notFolder
  | .folder location, piece :: rest =>
      if Path.isIdle piece then walk tree (.folder location) rest
      else if piece == ".." then walk tree (.folder location.dropLast) rest
      else
        match tree.at? (location ++ [piece]) with
        | none => .error .notFound
        | some place => walk tree place rest

def origin (path : String) : Place :=
  .folder (if Path.isAbsolute path then [] else home)

def resolve (tree : FileTree) (path : String) : Except Fault Place :=
  if path.isEmpty then .error .notFound
  else tree.walk (origin path) (Path.pieces path)

def read (tree : FileTree) (path : String) : Except Fault String :=
  match tree.resolve path with
  | .error fault => .error fault
  | .ok (.folder _) => .error .isFolder
  | .ok (.file location) =>
      match (tree.files.lookup location).bind String.fromUTF8? with
      | some text => .ok text
      | none => .error .notText

/-- Put a file at a location, in place of the one that may be there. -/
def put (tree : FileTree) (location : Location) (content : ByteArray) : FileTree :=
  let others := tree.files.filter (fun file => file.1 != location)
  { tree with files := others ++ [(location, content)] }

/--
Create the file that a path leads to, or replace its content.  The folder it is
in must exist; a path with a closing slash cannot name a file.
-/
def write (tree : FileTree) (path text : String) : Except Fault FileTree :=
  let named := (Path.pieces path).reverse.dropWhile (fun piece => piece == "")
  match path.isEmpty, named with
  | true, _ => .error .notFound
  | false, [] => .error .isFolder
  | false, name :: folders =>
      match tree.walk (origin path) folders.reverse with
      | .error fault => .error fault
      | .ok (.file _) => .error .notFolder
      | .ok (.folder location) =>
          let target := location ++ [name]
          if name == "." || name == ".." || path.toList.getLast? == some '/'
              || tree.folders.contains target then .error .isFolder
          else .ok (tree.put target text.toUTF8)

/-- All folders on the way to a location, the location included. -/
def foldersTo (location : Location) : List Location :=
  (List.range (location.length + 1)).map (fun count => location.take count)

/-- Make the folder that a relative path names, and those it is in. -/
def withFolder (tree : FileTree) (path : String) : FileTree :=
  let location := home ++ (Path.pieces path).filter (fun piece => !Path.isIdle piece)
  { tree with folders := (tree.folders ++ foldersTo location).eraseDups }

/-- Put a file where a relative path says, and make the folders it is in. -/
def withFile (tree : FileTree) (path : String) (content : ByteArray) : FileTree :=
  let location := home ++ (Path.pieces path).filter (fun piece => !Path.isIdle piece)
  let prepared :=
    { tree with folders := (tree.folders ++ foldersTo location.dropLast).eraseDups }
  prepared.put location content

/-- The files below home, with their paths relative to it. -/
def homeFiles (tree : FileTree) : List (String × ByteArray) :=
  tree.files.filterMap (fun file =>
    match file.1 with
    | "." :: inner => some ("/".intercalate inner, file.2)
    | _ => none)

/-- The operations on a file tree that is kept as a state. -/
def access : FileAccess (StateM FileTree) where
  read path := do return (<- get).read path
  write path text := do
    match (<- get).write path text with
    | .error fault => return .error fault
    | .ok after => set after; return .ok ()
  isFile path := do
    match (<- get).resolve path with
    | .ok (.file _) => return true
    | _ => return false
  isPresent path := do return (<- get).resolve path matches .ok _

end FileTree

end BinaryTape
