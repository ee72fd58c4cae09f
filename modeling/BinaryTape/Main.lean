import BinaryTape.Shell.Session

/-!
The command line program: the session on the files of the outside world.
-/

namespace BinaryTape
namespace Shell

/-- The fault behind an error of a file operation. -/
def faultOf : IO.Error -> Fault
  | .noFileOrDirectory _ _ _ => .notFound
  | .inappropriateType _ code _ => if code = 21 then .isFolder else .notFolder
  | error => .other (toString error)

def readFile (path : String) : IO (Except Fault String) := do
  match <- (IO.FS.readBinFile path).toBaseIO with
  | .error error => return .error (faultOf error)
  | .ok content =>
      match String.fromUTF8? content with
      | some text => return .ok text
      | none => return .error .notText

def writeFile (path text : String) : IO (Except Fault Unit) := do
  match <- (IO.FS.writeFile path text).toBaseIO with
  | .error error => return .error (faultOf error)
  | .ok done => return .ok done

/-- The operations on the files of the outside world. -/
def worldFiles : FileAccess IO where
  read := readFile
  write := writeFile
  isFile path := do
    match <- readFile path with
    | .error .notFound | .error .notFolder | .error .isFolder => return false
    | _ => return true
  isPresent path := do
    match <- readFile path with
    | .error .notFound | .error .notFolder => return false
    | _ => return true

/-- The environment variable that overrides the log level of the settings. -/
def levelVariable : String := "RUST_LOG"

end Shell
end BinaryTape

open BinaryTape.Shell in
def main (arguments : List String) : IO UInt32 := do
  let level <- IO.getEnv levelVariable
  let report <- session worldFiles level arguments
  for line in report.output do
    IO.println line
  unless report.complaint.isEmpty do
    IO.eprintln report.complaint
  return report.exitCode.toUInt32
