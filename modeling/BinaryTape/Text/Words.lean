import BinaryTape.Text.Blank

namespace BinaryTape
namespace Text

/-!
Words.

A text is cut at separators into the maximal runs of everything else.  Runs are
never empty, so separators at the ends or next to each other leave no trace.
The recursion goes from the right: the run that begins at a character is
complete when that character is reached, and no reversal is needed.
-/

/-- Put a run in front of other runs, unless it is empty. -/
def consRun (run : List α) (runs : List (List α)) : List (List α) :=
  if run.isEmpty then runs else run :: runs

/-- One step of the cut: the run that begins here, and the runs behind it. -/
def runStep (separator : α -> Bool) (value : α)
    (cut : List α × List (List α)) : List α × List (List α) :=
  if separator value then ([], consRun cut.1 cut.2) else (value :: cut.1, cut.2)

/-- The maximal runs of values that are no separators, in order. -/
def runs (separator : α -> Bool) (values : List α) : List (List α) :=
  let cut := values.foldr (runStep separator) ([], [])
  consRun cut.1 cut.2

/-- The words of a text, separated by Unicode white space. -/
def words (text : String) : List String :=
  (runs isWhiteSpace text.toList).map String.ofList

/-- Whether a text holds white space only. -/
def isBlankText (text : String) : Bool := text.toList.all isWhiteSpace

/-- What stands before the first occurrence of a character and, if it occurs, what follows it. -/
def splitAtFirst (mark : Char) (text : List Char) : List Char × Option (List Char) :=
  match text.dropWhile (fun character => character != mark) with
  | [] => (text, none)
  | _ :: rest => (text.takeWhile (fun character => character != mark), some rest)

/-- What is left of a text behind a given front, if the text starts with it. -/
def stripFront? : (front text : List Char) -> Option (List Char)
  | [], text => some text
  | _ :: _, [] => none
  | expected :: front, character :: text =>
      if character = expected then stripFront? front text else none

theorem stripFront?_append (front text : List Char) :
    stripFront? front (front ++ text) = some text := by
  induction front with
  | nil => rfl
  | cons expected front inductionHypothesis =>
      simp [stripFront?, inductionHypothesis]

end Text
end BinaryTape
