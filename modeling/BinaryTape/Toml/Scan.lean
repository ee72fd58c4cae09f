import BinaryTape.Text.Words

namespace BinaryTape
namespace Toml

/-!
Scanning TOML text.

A scanner takes what it recognises from the front of the remaining text, or
fails.  Alternatives start over at the same place.  Repetition is bounded by the
characters of the remaining text, one for each time, which is no restriction for
a scanner that takes at least one character.
-/

/-- A scanner: its result and the text behind it, or failure. -/
abbrev Scan := StateT (List Char) Option

namespace Scan

/-- The next character, which stays in the text. -/
def upcoming : Scan (Option Char) := fun text => some (text.head?, text)

def satisfy (accepts : Char -> Bool) : Scan Char := fun text =>
  match text with
  | character :: rest => if accepts character then some (character, rest) else none
  | [] => none

def exactly (expected : String) : Scan Unit := fun text =>
  (Text.stripFront? expected.toList text).map (fun rest => ((), rest))

/-- As many characters of a class as there are. -/
def takeWhile (accepts : Char -> Bool) : Scan (List Char) := fun text =>
  some (text.takeWhile accepts, text.dropWhile accepts)

/-- What a scanner recognises, or nothing. -/
def attempt (scan : Scan α) : Scan (Option α) := fun text =>
  match scan text with
  | some (value, rest) => some (some value, rest)
  | none => some (none, text)

def atEnd : Scan Unit := fun text => if text.isEmpty then some ((), text) else none

/-- As many repetitions as there are, at most one for each element of `bound`. -/
def repeatUpTo (scan : Scan α) : (bound : List Char) -> Scan (List α)
  | [] => pure []
  | _ :: bound => do
      match <- attempt scan with
      | none => return []
      | some value => return value :: (<- repeatUpTo scan bound)

def many (scan : Scan α) : Scan (List α) := fun text =>
  repeatUpTo scan text text

/-- A sequence with a separator between its members, possibly empty. -/
def separated (scan : Scan α) (separator : Scan Unit) : Scan (List α) := do
  match <- attempt scan with
  | none => return []
  | some first => return first :: (<- many (do separator; scan))

end Scan

open Scan

/-! ## Blanks, comments and line ends -/

def isBlank (character : Char) : Bool := character == ' ' || character == '\t'

/-- Tab and everything from the space on, except the delete character. -/
def isPlain (character : Char) : Bool :=
  character == '\t' || (0x20 <= character.toNat && character.toNat != 0x7F)

def blanks : Scan Unit := do
  let _ <- takeWhile isBlank

/-- A line feed, alone or after a carriage return. -/
def newline : Scan Unit := exactly "\n" <|> exactly "\r\n"

/-- The end of a line or of the text. -/
def lineEnd : Scan Unit := newline <|> atEnd

/-- A comment up to the end of its line. -/
def comment : Scan Unit := do
  exactly "#"
  let _ <- takeWhile isPlain

/-- What may follow a statement on its line. -/
def lineTail : Scan Unit := do
  blanks
  let _ <- attempt comment
  lineEnd

/-- What may stand between the members of an array. -/
def gap : Scan Unit := do
  let blank : Scan Unit := do
    let _ <- satisfy isBlank
  let _ <- many (blank <|> newline <|> (do comment; newline))

end Toml
end BinaryTape
