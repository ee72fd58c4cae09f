namespace BinaryTape
namespace Text

/-!
Blank characters.

Three notions of blank meet in this library.  Tables separate fields by space
and tab only; program text skips the blanks of ASCII; headers, directives and
bindings are split wherever the Unicode property `White_Space` holds.
-/

/-- Space and tab, the only characters that separate the fields of a table. -/
def isTableBlank (character : Char) : Bool :=
  character == ' ' || character == '\t'

/-- The blanks of ASCII: tab, line feed, form feed, carriage return, space. -/
def isAsciiBlank (character : Char) : Bool :=
  [0x09, 0x0A, 0x0C, 0x0D, 0x20].contains character.toNat

/-- The intervals of code points with the Unicode property `White_Space`. -/
def whiteSpaceIntervals : List (Nat × Nat) :=
  [(0x0009, 0x000D), (0x0020, 0x0020), (0x0085, 0x0085), (0x00A0, 0x00A0),
   (0x1680, 0x1680), (0x2000, 0x200A), (0x2028, 0x2029), (0x202F, 0x202F),
   (0x205F, 0x205F), (0x3000, 0x3000)]

/-- Whether a character has the Unicode property `White_Space`. -/
def isWhiteSpace (character : Char) : Bool :=
  whiteSpaceIntervals.any (fun interval =>
    interval.1 <= character.toNat && character.toNat <= interval.2)

end Text
end BinaryTape
