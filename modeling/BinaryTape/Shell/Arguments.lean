import BinaryTape.Text.Words

namespace BinaryTape
namespace Shell

/-!
# Command line arguments

One file is named, and options say what to do with it.  An option that takes a
value finds it behind an equals sign, glued to its letter, or in the next
argument, which must not look like an option itself.  Each option is given at
most once, except that `-v` may be repeated.  Two dashes end the options.
-/

/-- The form in which a compiled program is shown. -/
inductive Format where
  | table
  | json
  deriving DecidableEq, Repr

/-- What the command line asks for. -/
structure Arguments where
  file : String
  searchPath : Option String
  quiet : Bool
  verbose : Nat
  tape : Option String
  head : Nat
  format : Format
  config : Option String
  deriving DecidableEq, Repr

/-- The options that take a value. -/
inductive Setting where
  | searchPath
  | tape
  | head
  | format
  | config
  deriving DecidableEq, Repr

/-- What an option does. -/
inductive Switch where
  | quiet
  | verbose
  | setting (name : Setting)
  deriving DecidableEq, Repr

/-- The options that are written as words. -/
def longOptions : List (String × Switch) :=
  [("quiet", .quiet), ("verbose", .verbose), ("search-path", .setting .searchPath),
   ("tape", .setting .tape), ("head", .setting .head), ("format", .setting .format),
   ("config", .setting .config)]

/-- The options that are written as letters. -/
def shortOptions : List (Char × Switch) :=
  [('q', .quiet), ('v', .verbose), ('s', .setting .searchPath), ('t', .setting .tape),
   ('f', .setting .format), ('c', .setting .config)]

/-- The arguments collected so far, not checked yet. -/
structure Collected where
  files : List String := []
  quiet : Bool := false
  verbose : Nat := 0
  values : List (Setting × String) := []

namespace Collected

/-- Give a value to a setting that has none. -/
def set (collected : Collected) (name : Setting) (value : String) : Option Collected :=
  if (collected.values.lookup name).isSome then none
  else some { collected with values := collected.values ++ [(name, value)] }

/-- Turn on an option without a value. -/
def flag (collected : Collected) : Switch -> Option Collected
  | .quiet => if collected.quiet then none else some { collected with quiet := true }
  | .verbose => some { collected with verbose := collected.verbose + 1 }
  | .setting _ => none

end Collected

/--
Read a cluster of option letters.  A letter that takes a value ends the cluster:
what follows it is its value, and if nothing does, it waits for the next argument.
-/
def readCluster : List Char -> Collected -> Option (Collected × Option Setting)
  | [], collected => some (collected, none)
  | letter :: rest, collected =>
      match shortOptions.lookup letter with
      | none => none
      | some (.setting name) =>
          match rest with
          | [] => some (collected, some name)
          | '=' :: value => do
              return (<- collected.set name (String.ofList value), none)
          | value => do
              return (<- collected.set name (String.ofList value), none)
      | some switch => do
          readCluster rest (<- collected.flag switch)

/-- Read an option word, given without its dashes. -/
def readWord (text : List Char) (collected : Collected) :
    Option (Collected × Option Setting) :=
  let (word, value) := Text.splitAtFirst '=' text
  match longOptions.lookup (String.ofList word), value with
  | some (.setting name), some value => do
      return (<- collected.set name (String.ofList value), none)
  | some (.setting name), none => some (collected, some name)
  | some switch, none => do
      return (<- collected.flag switch, none)
  | _, _ => none

/-- Read one argument; a setting in the result waits for its value. -/
def readArgument (argument : String) (collected : Collected) :
    Option (Collected × Option Setting) :=
  match argument.toList with
  | '-' :: '-' :: word => readWord word collected
  | '-' :: letter :: letters => readCluster (letter :: letters) collected
  | _ => some ({ collected with files := collected.files ++ [argument] }, none)

/-- Whether an argument looks like an option; a single dash does not. -/
def looksLikeOption (argument : String) : Bool :=
  match argument.toList with
  | '-' :: _ :: _ => true
  | _ => false

def collect : List String -> Collected -> Option Collected
  | [], collected => some collected
  | "--" :: rest, collected => some { collected with files := collected.files ++ rest }
  | argument :: rest, collected =>
      match readArgument argument collected with
      | none => none
      | some (after, none) => collect rest after
      | some (after, some name) =>
          match rest with
          | [] => none
          | value :: others =>
              if looksLikeOption value then none
              else
                match after.set name value with
                | none => none
                | some given => collect others given

/-- The greatest head position that can be asked for. -/
def headLimit : Nat := Nat.pow 2 64 - 1

/-- Read a head position: decimal digits, possibly behind a plus sign. -/
def readHead (text : String) : Option Nat :=
  let digits :=
    match text.toList with
    | '+' :: digits => digits
    | digits => digits
  if digits.isEmpty || !digits.all Char.isDigit then none
  else
    let value := digits.foldl (fun value digit => value * 10 + (digit.toNat - 48)) 0
    if value <= headLimit then some value else none

def readFormat : String -> Option Format
  | "table" => some .table
  | "json" => some .json
  | _ => none

/-- A path must not be empty. -/
def readPath (text : String) : Option String :=
  if text.isEmpty then none else some text

/-- The value of a setting, read and checked if it is given. -/
def optionalSetting (collected : Collected) (name : Setting)
    (read : String -> Option α) : Option (Option α) :=
  match collected.values.lookup name with
  | none => some none
  | some text => (read text).map some

/-- Read a command line, unless it is not understood. -/
def Arguments.parse (arguments : List String) : Option Arguments := do
  let collected <- collect arguments {}
  let file <- match collected.files with
    | [file] => readPath file
    | _ => none
  if collected.quiet && 0 < collected.verbose then none
  let searchPath <- optionalSetting collected .searchPath readPath
  let tape <- optionalSetting collected .tape some
  let head <- optionalSetting collected .head readHead
  let format <- optionalSetting collected .format readFormat
  let config <- optionalSetting collected .config readPath
  return {
    file := file
    searchPath := searchPath
    quiet := collected.quiet
    verbose := collected.verbose
    tape := tape
    head := head.getD 0
    format := format.getD .table
    config := config }

end Shell
end BinaryTape
