import BinaryTape.Text.Words

namespace BinaryTape
namespace Path

/-!
Path texts.

Paths are kept as they were written, since they are shown in messages.  A path
is cut at slashes; empty pieces and single dots count for nothing, except that
they may follow a file name without hiding it.  The extension of a file name is
what follows its last dot, provided that something stands before that dot.
-/

/-- One step of the cut at a separator. -/
def pieceStep (separator character : Char) (pieces : List (List Char)) :
    List (List Char) :=
  if character = separator then [] :: pieces
  else
    match pieces with
    | [] => [[character]]
    | piece :: others => (character :: piece) :: others

/-- A text cut at every occurrence of a separator; the pieces may be empty. -/
def cutAt (separator : Char) (text : List Char) : List (List Char) :=
  text.foldr (pieceStep separator) [[]]

/-- The pieces of a path between its slashes. -/
def pieces (path : String) : List String :=
  (cutAt '/' path.toList).map String.ofList

def isAbsolute (path : String) : Bool := path.toList.head? == some '/'

/-- Whether a piece of a path leads nowhere. -/
def isIdle (piece : String) : Bool := piece == "" || piece == "."

/-- The path of something inside a folder.  An absolute path stands for itself. -/
def join (folder inner : String) : String :=
  if isAbsolute inner || folder.isEmpty || folder.toList.getLast? == some '/' then
    (if isAbsolute inner then "" else folder) ++ inner
  else folder ++ "/" ++ inner

/-- The pieces of a path up to its last piece that leads somewhere, last one first. -/
def reversedPieces (path : String) : List String :=
  (pieces path).reverse.dropWhile isIdle

/-- The file name of a path: its last piece, unless that leads to a parent folder. -/
def fileName? (path : String) : Option String :=
  match reversedPieces path with
  | [] | ".." :: _ => none
  | name :: _ => some name

/--
The stem and the extension of a file name.  A name without a dot, or with its
only dot in front, is all stem.
-/
def splitName (name : String) : String × Option String :=
  let reversed := name.toList.reverse
  match reversed.dropWhile (fun character => character != '.') with
  | [] | ['.'] => (name, none)
  | _ :: stem =>
      let extension := reversed.takeWhile (fun character => character != '.')
      (String.ofList stem.reverse, some (String.ofList extension.reverse))

def extension? (path : String) : Option String :=
  (fileName? path).bind (fun name => (splitName name).2)

/--
The path with another extension.  Everything behind the stem of the file name is
replaced; a path without a file name stays as it is.
-/
def withExtension (path extension : String) : String :=
  match fileName? path, reversedPieces path with
  | some name, _ :: folders =>
      let renamed := (splitName name).1 ++ "." ++ extension
      "/".intercalate ((renamed :: folders).reverse)
  | _, _ => path

end Path
end BinaryTape
