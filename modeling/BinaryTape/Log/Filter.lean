import BinaryTape.Log.Event
import BinaryTape.Path

namespace BinaryTape
namespace Log

/-!
Log filters.

A filter is written as a list of directives with commas between them.  A
directive is a level for everything, or the front of a logger's name with a level
behind an equals sign; without one, everything of that logger is logged.  The
directive with the longest front decides.  Directives that cannot be read are
ignored, and if none is left only errors are logged.
-/

/-- The name under which this program logs. -/
def loggerName : String := "aqua"

/-- The words for the levels, with the greatest rank that each of them lets through. -/
def levelWords : List (String × Nat) :=
  [("off", 0), ("error", 1), ("warn", 2), ("info", 3), ("debug", 4), ("trace", 5),
   ("0", 0), ("1", 1), ("2", 2), ("3", 3), ("4", 4), ("5", 5)]

/-- The greatest rank that a level lets through; capitals do not matter. -/
def levelRank? (word : String) : Option Nat :=
  levelWords.lookup (String.ofList (word.toList.map Char.toLower))

/-- Whether a character may stand in the name of a logger. -/
def isLoggerChar (character : Char) : Bool :=
  character.isAlphanum || [':', '-', '_'].contains character

/-- A directive: the front of a logger's name, and the greatest rank to let through. -/
def directive? (text : String) : Option (List Char × Nat) :=
  match levelRank? text with
  | some rank => some ([], rank)
  | none =>
      let (logger, level) := Text.splitAtFirst '=' text.toList
      if logger.isEmpty || !logger.all isLoggerChar then none
      else
        match level with
        | none => some (logger, Level.trace.rank)
        | some [] => some (logger, Level.error.rank)
        | some word => (levelRank? (String.ofList word)).map (fun rank => (logger, rank))

/-- The directives of a filter text that can be read. -/
def directives (text : String) : List (List Char × Nat) :=
  (Path.cutAt ',' text.toList).filterMap (fun part =>
    let trimmed := (part.dropWhile Text.isWhiteSpace).reverse.dropWhile Text.isWhiteSpace
    directive? (String.ofList trimmed.reverse))

/-- The more specific of two directives; of two alike, the second. -/
def moreSpecific (first second : List Char × Nat) : List Char × Nat :=
  if second.1.length < first.1.length then first else second

/-- What is let through into the log: levels up to a rank. -/
structure Filter where
  rank : Nat
  deriving DecidableEq, Repr

namespace Filter

def ofText (text : String) : Filter :=
  match directives text with
  | [] => ⟨Level.error.rank⟩
  | known =>
      let applicable := known.filter (fun directive =>
        (Text.stripFront? directive.1 loggerName.toList).isSome)
      match applicable with
      | [] => ⟨0⟩
      | first :: others => ⟨(others.foldl moreSpecific first).2⟩

def passes (filter : Filter) (event : Event) : Bool :=
  event.level.rank <= filter.rank

end Filter

end Log
end BinaryTape
