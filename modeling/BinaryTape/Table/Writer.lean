import BinaryTape.Program

namespace BinaryTape
namespace Table

/-!
Writing tables.

The first line holds the start state and the end states, every further line one
rule.  Fields are separated by single spaces and every line, the last one too,
is ended by a line feed.  No comments are written.
-/

/-- The header line of a program, without its line end. -/
def headerLine (program : Program) : String :=
  " ".intercalate (program.start :: program.ends)

/-- The lines of a program's table, without their line ends. -/
def outputLines (program : Program) : List String :=
  headerLine program :: program.rules.map Rule.text

def write (program : Program) : String :=
  String.join ((outputLines program).map (fun line => line ++ "\n"))

end Table
end BinaryTape
