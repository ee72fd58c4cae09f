import BinaryTape.Text.Printable

namespace BinaryTape
namespace Text

/-!
Quoted texts, as they appear in log lines.
-/

/-- Escapes with a letter of their own. -/
def quotedEscapes : List (Nat × Char) :=
  [(0x00, '0'), (0x09, 't'), (0x0A, 'n'), (0x0D, 'r'), (0x22, '"'), (0x5C, '\\')]

/-- How one character is written inside quotes. -/
def quotedChar (character : Char) : List Char :=
  match quotedEscapes.lookup character.toNat with
  | some letter => ['\\', letter]
  | none =>
      if isPrintable character then [character]
      else ['\\', 'u', '\x7b'] ++ Nat.toDigits 16 character.toNat ++ ['\x7d']

def quoted (text : String) : String :=
  String.ofList ('"' :: (text.toList.flatMap quotedChar ++ ['"']))

def quotedList (texts : List String) : String :=
  "[" ++ ", ".intercalate (texts.map quoted) ++ "]"

def quotedSet (texts : List String) : String :=
  "\x7b" ++ ", ".intercalate (texts.map quoted) ++ "\x7d"

end Text
end BinaryTape
