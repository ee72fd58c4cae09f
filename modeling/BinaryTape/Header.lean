import BinaryTape.Error
import BinaryTape.Text.Words

namespace BinaryTape

/-!
State headers.

A header names the start state and at least one end state.  The type carries the
second half of that rule, so a program built from a header always has an end
state to fall through to.
-/

/-- A start state and one or more end states. -/
structure Header where
  start : StateName
  ends : List StateName
  ends_ne_nil : ends ≠ []
  deriving DecidableEq, Repr

namespace Header

/-- The header made of the given names; `line` is shown if there are too few. -/
def ofNames (names : List String) (line : String) : Except Error Header :=
  match names with
  | start :: first :: others => .ok ⟨start, first :: others, List.cons_ne_nil _ _⟩
  | _ => .error (.malformedHeader line)

/-- Read a header line, whose names are separated by white space. -/
def parse (line : String) : Except Error Header := ofNames (Text.words line) line

/-- The end state that a source falls through to. -/
def firstEnd (header : Header) : StateName := header.ends.head header.ends_ne_nil

end Header

end BinaryTape
