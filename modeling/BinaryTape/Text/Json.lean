namespace BinaryTape
namespace Text

/-!
JSON strings and layout.

Strings escape the quote, the backslash and the control characters below the
space; everything else is written as it is.  Nested values are indented by two
spaces per level, one member per line.
-/

namespace Json

/-- Escapes with a letter of their own. -/
def shortEscapes : List (Nat × Char) :=
  [(0x22, '"'), (0x5C, '\\'), (0x08, 'b'), (0x0C, 'f'), (0x0A, 'n'), (0x0D, 'r'),
   (0x09, 't')]

def hexDigit (value : Nat) : Char := Nat.digitChar value

/-- How one character is written inside a string. -/
def escape (character : Char) : List Char :=
  match shortEscapes.lookup character.toNat with
  | some letter => ['\\', letter]
  | none =>
      if character.toNat < 0x20 then
        ['\\', 'u', '0', '0', hexDigit (character.toNat / 16),
          hexDigit (character.toNat % 16)]
      else [character]

def quote (text : String) : String :=
  String.ofList ('"' :: (text.toList.flatMap escape ++ ['"']))

/-- The white space that starts a line at the given depth. -/
def indent (depth : Nat) : String := "".pushn ' ' (2 * depth)

/-- A bracketed group whose members stand on lines of their own. -/
def group (opening closing : Char) (depth : Nat) (members : List String) : String :=
  if members.isEmpty then String.ofList [opening, closing]
  else
    let lines := members.map (fun member => "\n" ++ indent (depth + 1) ++ member)
    String.ofList [opening] ++ ",".intercalate lines ++ "\n" ++ indent depth
      ++ String.ofList [closing]

/-- An array whose own line starts at the given depth. -/
def array (depth : Nat) (members : List String) : String :=
  group '[' ']' depth members

/-- An object whose own line starts at the given depth. -/
def object (depth : Nat) (members : List (String × String)) : String :=
  group '\x7b' '\x7d' depth
    (members.map (fun member => quote member.1 ++ ": " ++ member.2))

end Json

end Text
end BinaryTape
