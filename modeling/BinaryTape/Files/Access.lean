import BinaryTape.Error
import BinaryTape.Program
import BinaryTape.Table.Reader
import BinaryTape.Table.Writer

namespace BinaryTape

/-!
# Access to files

All work on files goes through four operations, given for whatever monad the
files live in: the outside world, or a tree of files in memory.
-/

/-- Why a file operation did not succeed. -/
inductive Fault where
  | notFound
  | notFolder
  | isFolder
  | notText
  | other (text : String)
  deriving DecidableEq, Repr

def Fault.message : Fault -> String
  | notFound => "No such file or directory (os error 2)"
  | notFolder => "Not a directory (os error 20)"
  | isFolder => "Is a directory (os error 21)"
  | notText => "stream did not contain valid UTF-8"
  | other text => text

/-- The operations on files. -/
structure FileAccess (m : Type -> Type) where
  read : String -> m (Except Fault String)
  /-- Create a file, or replace its content. -/
  write : String -> String -> m (Except Fault Unit)
  isFile : String -> m Bool
  /-- Whether a path leads to anything. -/
  isPresent : String -> m Bool

namespace FileAccess

variable {m : Type -> Type} [Monad m]

/-- Read a file that is needed. -/
def readText (files : FileAccess m) (path : String) : m (Except Error String) := do
  match <- files.read path with
  | .ok text => return .ok text
  | .error fault =>
      return .error (.file s!"Failed to read file {path}: {fault.message}")

def loadProgram (files : FileAccess m) (path : String) :
    m (Except Error Program) := do
  return (<- files.readText path).bind Table.read

def writeProgram (files : FileAccess m) (path : String) (program : Program) :
    m (Except Error Unit) := do
  match <- files.write path (Table.write program) with
  | .ok done => return .ok done
  | .error fault =>
      return .error (.file s!"Failed to write file {path}: {fault.message}")

end FileAccess

end BinaryTape
