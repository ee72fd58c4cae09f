import BinaryTape.Machine
import BinaryTape.Toml.Document

namespace BinaryTape

/-!
# Settings

Settings are read from a TOML document with a section for the compiler, one for
the machine and one for the log.  Whatever is missing has a default, and members
that are not known are ignored.  A section may also be written as an array of
its members in their fixed order.
-/

/-- What can be configured. -/
structure Settings where
  /-- A further folder to search for modules. -/
  searchPath : Option String := none
  /-- How much is logged, from zero for the least. -/
  verbosity : Nat := 1
  maxSteps : Nat := defaultStepLimit
  /-- The initial tape, when none is given. -/
  tape : String := "0"
  /-- The log level, in place of the one that follows from the verbosity. -/
  level : Option String := none
  deriving DecidableEq, Repr

namespace Settings

open Toml

/-- The name of the file that settings are read from when none is given. -/
def fileName : String := "aqua.toml"

def verbosityLimit : Nat := 255

/--
The members of a section.  In an array the first `required` members must be
there; a point in time is a section without known members.
-/
def sectionMembers (names : List String) (required : Nat) : Option Item -> Option Fields
  | none => some []
  | some (.table _ fields) => some fields
  | some .moment => some []
  | some (.array items) =>
      if items.length < required then none else some (names.zip items)
  | some (.tables elements) =>
      if elements.length < required then none
      else some (names.zip (elements.map (Item.table .defined)))
  | some _ => none

/-- A member that is a text, if it is there. -/
def textMember (fields : Fields) (name : String) : Option (Option String) :=
  match fields.lookup name with
  | none => some none
  | some (.text value) => some (some value)
  | some _ => none

/-- A member that is a number up to a limit, if it is there. -/
def numberMember (fields : Fields) (name : String) (limit : Nat) :
    Option (Option Nat) :=
  match fields.lookup name with
  | none => some none
  | some (.integer value) =>
      if 0 <= value && value.toNat <= limit then some (some value.toNat) else none
  | some _ => none

def ofDocument (document : Fields) : Option Settings := do
  let compiler <-
    sectionMembers ["search_path", "verbosity"] 1 (document.lookup "compiler")
  let searchPath <- textMember compiler "search_path"
  let verbosity <- numberMember compiler "verbosity" verbosityLimit
  let machine <- sectionMembers ["max_steps", "tape"] 0 (document.lookup "machine")
  let maxSteps <- numberMember machine "max_steps" (integerBound - 1)
  let tape <- textMember machine "tape"
  let logging <- sectionMembers ["level"] 1 (document.lookup "logging")
  let level <- textMember logging "level"
  let defaults : Settings := {}
  return {
    searchPath := searchPath
    verbosity := verbosity.getD defaults.verbosity
    maxSteps := maxSteps.getD defaults.maxSteps
    tape := tape.getD defaults.tape
    level := level }

def parse (text : String) : Option Settings := (Toml.parse text).bind ofDocument

/-- The log level that is asked for. -/
def logLevel (settings : Settings) : String :=
  match settings.level, settings.verbosity with
  | some level, _ => level
  | none, 0 => "warn"
  | none, 1 => "info"
  | none, 2 => "debug"
  | none, _ => "trace"

end Settings

end BinaryTape
