import BinaryTape.Toml.Scan

namespace BinaryTape
namespace Toml

/-!
TOML strings.

There are two kinds, each with a one-line and a multi-line form.  Basic strings
know escapes, literal strings do not.  A multi-line string may hold one or two
quotes in a row, also right before its closing three.
-/

open Scan

/-- The value of digits in a base, most significant first. -/
def digitsValue (base : Nat) (digits : List Char) : Nat :=
  digits.foldl (fun value digit =>
    let lower := digit.toLower
    let worth := if lower.isDigit then lower.toNat - 48 else lower.toNat - 87
    value * base + worth) 0

/-- Digits and the letters up to f, in either case. -/
def isHexDigit (character : Char) : Bool :=
  character.isDigit || ('a' <= character.toLower && character.toLower <= 'f')

/-- A character given by a fixed number of hexadecimal digits. -/
def scalar (count : Nat) : Scan Char := do
  let digits <- (List.replicate count ()).mapM (fun _ => satisfy isHexDigit)
  let value := digitsValue 16 digits
  if value.isValidChar then return Char.ofNat value else failure

def letterEscapes : List (Char × Char) :=
  [('b', '\x08'), ('t', '\t'), ('n', '\n'), ('f', '\x0c'), ('r', '\r'),
   ('"', '"'), ('\\', '\\')]

/-- An escaped character, backslash included. -/
def escaped : Scan Char := do
  exactly "\\"
  let letter <- satisfy (fun _ => true)
  match letterEscapes.lookup letter with
  | some character => return character
  | none =>
      if letter == 'u' then scalar 4
      else if letter == 'U' then scalar 8
      else failure

/-- A character that stands for itself in a basic string. -/
def isBasicChar (character : Char) : Bool :=
  isPlain character && character != '"' && character != '\\'

/-- A character that stands for itself in a literal string. -/
def isLiteralChar (character : Char) : Bool :=
  isPlain character && character != '\''

def basicString : Scan String := do
  exactly "\""
  let content <- many (satisfy isBasicChar <|> escaped)
  exactly "\""
  return String.ofList content

def literalString : Scan String := do
  exactly "'"
  let content <- takeWhile isLiteralChar
  exactly "'"
  return String.ofList content

/-- One or two quotes that do not close a multi-line string. -/
def innerQuotes (quote : Char) : Scan (List Char) := do
  let quotes <- takeWhile (fun character => character == quote)
  if quotes.length == 1 || quotes.length == 2 then return quotes else failure

/-- The three quotes that close a multi-line string, after up to two that belong to it. -/
def closingQuotes (quote : Char) : Scan (List Char) := fun text =>
  let quotes := text.takeWhile (fun character => character == quote)
  if quotes.length < 3 then none
  else
    let inner := min (quotes.length - 3) 2
    some (quotes.take inner, text.drop (inner + 3))

/-- A backslash at the end of a line, and all blank space behind it. -/
def lineContinuation : Scan (List Char) := do
  exactly "\\"
  blanks
  newline
  let blank : Scan Unit := do
    let _ <- satisfy isBlank
  let _ <- many (blank <|> newline)
  return []

/-- A line end inside a multi-line string. -/
def innerNewline : Scan (List Char) := do
  newline
  return ['\n']

/-- One character as a piece of a multi-line string. -/
def single (scan : Scan Char) : Scan (List Char) := do
  return [<- scan]

/-- A multi-line string of the given pieces; a line end right at its start is dropped. -/
def multiline (quote : Char) (piece : Scan (List Char)) : Scan String := do
  exactly (String.ofList [quote, quote, quote])
  let _ <- attempt newline
  let pieces <- many (piece <|> innerNewline <|> innerQuotes quote)
  let last <- closingQuotes quote
  return String.ofList (pieces.flatten ++ last)

def string : Scan String :=
  multiline '"' (single (satisfy isBasicChar) <|> lineContinuation <|> single escaped)
    <|> basicString
    <|> multiline '\'' (single (satisfy isLiteralChar))
    <|> literalString

end Toml
end BinaryTape
