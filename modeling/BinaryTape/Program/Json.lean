import BinaryTape.Program
import BinaryTape.Text.Json

namespace BinaryTape

/-!
Programs as JSON text, for other tools.
-/

open Text

/-- A rule as an object that stands two levels deep. -/
def Rule.jsonText (rule : Rule) : String :=
  Json.object 2
    [("old_state", Json.quote rule.state),
     ("old_symbol", Json.quote rule.read.text),
     ("new_state", Json.quote rule.next),
     ("new_symbol", Json.quote rule.write.text),
     ("direction", Json.quote rule.move.name)]

/-- A program as an indented object. -/
def Program.jsonText (program : Program) : String :=
  Json.object 0
    [("start_state", Json.quote program.start),
     ("end_states", Json.array 1 (program.ends.map Json.quote)),
     ("rules", Json.array 1 (program.rules.map Rule.jsonText))]

end BinaryTape
