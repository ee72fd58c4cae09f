import BinaryTape.Program
import BinaryTape.Text.Words

namespace BinaryTape

/-!
Modules.

A module is a table that is used as a sub-machine.  Declaring it under a name
moves all of its states into the name space of that name, so that two modules
never share a state.  Every call appends a further mark of its own, so that two
calls of one module do not share states either.
-/

/-- A named sub-machine with one start state and ordered end states. -/
structure Module where
  name : String
  start : StateName
  ends : List StateName
  rules : List Rule
  deriving DecidableEq, Repr

namespace Module

/-- Use a table under a name and leave its states as they are. -/
def ofProgram (name : String) (program : Program) : Module :=
  ⟨name, program.start, program.ends, program.rules⟩

/-- What is put in front of the states of a module when it is declared. -/
def qualifier (name : String) : String := name ++ "("

/-- The name of a table's state after the table was declared as a module. -/
def qualify (name : String) (state : StateName) : StateName := qualifier name ++ state

/-- Declare a table as a module: every state moves into the module's name space. -/
def declare (name : String) (program : Program) : Module where
  name := name
  start := qualify name program.start
  ends := program.ends.map (qualify name)
  rules := program.rules.map (fun rule =>
    { rule with state := qualify name rule.state, next := qualify name rule.next })

/-- The name a state had before the module was declared, if it is in its name space. -/
def localName? (declared : Module) (state : StateName) : Option StateName :=
  (Text.stripFront? (qualifier declared.name).toList state.toList).map String.ofList

theorem localName?_qualify (name : String) (program : Program) (state : StateName) :
    (declare name program).localName? (qualify name state) = some state := by
  simp [localName?, declare, qualify, Text.stripFront?_append]

/-- A declared module and how often it has been called so far. -/
structure Entry where
  declared : Module
  invocations : Nat
  deriving DecidableEq, Repr

/-- What is appended to the states of a module in its call with the given number. -/
def invocationScope (invocation : Nat) : String := s!"_i{invocation})"

namespace Entry

/-- A module that has not been called yet. -/
def ofModule (declared : Module) : Entry := ⟨declared, 0⟩

/-- The mark of the next call. -/
def scope (entry : Entry) : String := invocationScope entry.invocations

def advance (entry : Entry) : Entry := { entry with invocations := entry.invocations + 1 }

end Entry

end Module

end BinaryTape
