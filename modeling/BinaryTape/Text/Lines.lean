namespace BinaryTape
namespace Text

/-!
Source lines.

A source is cut at line feeds.  A carriage return directly before a line feed
belongs to the line end; any other carriage return is part of its line.  A line
feed at the very end of the text closes the last line and opens no new one.
-/

/-- Put a character in front of the first of several lines. -/
def consLine (character : Char) : List (List Char) -> List (List Char)
  | [] => [[character]]
  | line :: lines => (character :: line) :: lines

def lineList : List Char -> List (List Char)
  | [] => []
  | '\n' :: rest => [] :: lineList rest
  | '\r' :: '\n' :: rest => [] :: lineList rest
  | character :: rest => consLine character (lineList rest)

def lines (text : String) : List String := (lineList text.toList).map String.ofList

end Text
end BinaryTape
