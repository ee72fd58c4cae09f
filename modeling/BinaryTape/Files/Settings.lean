import BinaryTape.Files.Access
import BinaryTape.Settings

namespace BinaryTape
namespace FileAccess

/-!
Settings in files.  A file that is asked for must be there; the default file may
be missing.
-/

variable {m : Type -> Type} [Monad m]

def readSettings (files : FileAccess m) (path : String) :
    m (Except Error Settings) := do
  match <- files.read path with
  | .error fault =>
      return .error (.file s!"Failed to read config file {path}: {fault.message}")
  | .ok text =>
      match Settings.parse text with
      | some settings => return .ok settings
      | none => return .error (.file s!"Failed to parse config file {path}")

/-- Read settings from the default file, if it is there. -/
def loadSettings (files : FileAccess m) : m (Except Error Settings) := do
  if <- files.isPresent Settings.fileName then
    files.readSettings Settings.fileName
  else return .ok {}

end FileAccess
end BinaryTape
