import BinaryTape.Error
import BinaryTape.Table.Reader

namespace BinaryTape

/-!
Where modules come from.

A library answers a module name with a table or with the reason why there is
none.  It may also say where it found the table, which is only of interest to
the log.
-/

/-- The answer of a library to a module name. -/
structure Library.Answer where
  origin : Option String
  program : Except Error Program

/-- Somewhere tables can be looked up by module name. -/
structure Library where
  lookUp : String -> Library.Answer

namespace Library

/-- The table of a module. -/
def load (library : Library) (name : String) : Except Error Program :=
  (library.lookUp name).program

/-- Tables held in memory as text. -/
def ofTexts (texts : List (String × String)) : Library where
  lookUp name :=
    { origin := none
      program :=
        match texts.lookup name with
        | some text => Table.read text
        | none => .error (.moduleNotFound name "memory") }

end Library

end BinaryTape
