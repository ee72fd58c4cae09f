import BinaryTape.Toml.Strings

namespace BinaryTape
namespace Toml

/-!
TOML numbers.

Underscores may stand between digits, never next to anything else.  Integers
have 64 bits with a sign; a sign is only possible in base ten, and so is a
leading zero impossible there.  Numbers with a fraction or an exponent are
binary floating-point numbers, of which only the size matters here: a positive
one must not round to infinity.
-/

open Scan

/-- One or more digits with underscores between them, without the underscores. -/
def digits (isDigit : Char -> Bool) : Scan (List Char) := do
  let first <- satisfy isDigit
  let rest <- many (satisfy isDigit <|> (do exactly "_"; satisfy isDigit))
  return first :: rest

/-- Decimal digits without a leading zero. -/
def wholeDigits : Scan (List Char) := do
  if (<- upcoming) == some '0' then
    exactly "0"
    return ['0']
  else digits Char.isDigit

/-- Whether there is a minus sign; a plus sign is skipped. -/
def sign : Scan Bool := do
  let mark <- attempt (satisfy (fun character => character == '+' || character == '-'))
  return mark == some '-'

/-- An integer that is written in a given base behind a mark. -/
def markedInteger (mark : String) (base : Nat) (isDigit : Char -> Bool) : Scan Int := do
  exactly mark
  return digitsValue base (<- digits isDigit)

/-- A decimal integer with an optional sign. -/
def decimalInteger : Scan Int := do
  let negative <- sign
  let size : Int := digitsValue 10 (<- wholeDigits)
  return if negative then -size else size

/-- The least positive number that an integer cannot be. -/
def integerBound : Nat := Nat.pow 2 63

def integer : Scan Int := do
  let value <-
    markedInteger "0x" 16 isHexDigit
      <|> markedInteger "0o" 8 (fun character => '0' <= character && character <= '7')
      <|> markedInteger "0b" 2 (fun character => character == '0' || character == '1')
      <|> decimalInteger
  if -(integerBound : Int) <= value && value < integerBound then return value
  else failure

/-- The least number that rounds to infinity instead of the greatest finite one. -/
def overflowBound : Nat := Nat.pow 2 1024 - Nat.pow 2 970

/--
Whether `size * 10 ^ exponent` rounds to infinity.  Numbers whose count of
digits decides are told apart first, so that no large power is formed for them.
-/
def overflows (size : Nat) (exponent : Int) : Bool :=
  let digitCount : Int := (Nat.toDigits 10 size).length
  if size == 0 || digitCount + exponent < 300 then false
  else if digitCount + exponent > 400 then true
  else if exponent < 0 then size >= overflowBound * Nat.pow 10 exponent.natAbs
  else size * Nat.pow 10 exponent.natAbs >= overflowBound

def exponent : Scan Int := do
  let _ <- satisfy (fun character => character == 'e' || character == 'E')
  let negative <- sign
  let size : Int := digitsValue 10 (<- digits Char.isDigit)
  return if negative then -size else size

def fraction : Scan (List Char) := do
  exactly "."
  digits Char.isDigit

/-- A number with a fraction, an exponent or both. -/
def finiteFloat : Scan Unit := do
  let negative <- sign
  let whole <- wholeDigits
  let part <- attempt fraction
  let power <- attempt exponent
  if part.isNone && power.isNone then failure
  let decimals := part.getD []
  let size := digitsValue 10 (whole ++ decimals)
  if !negative && overflows size (power.getD 0 - decimals.length) then failure

/-- Infinity or no number, with an optional sign. -/
def specialFloat : Scan Unit := do
  let _ <- sign
  exactly "inf" <|> exactly "nan"

def float : Scan Unit := finiteFloat <|> specialFloat

end Toml
end BinaryTape
