import BinaryTape.Toml.Numbers

namespace BinaryTape
namespace Toml

/-!
TOML dates and times, which are checked and not kept.
-/

open Scan

/-- A number of exactly `count` digits within bounds. -/
def fixedNumber (count least greatest : Nat) : Scan Nat := do
  let found <- (List.replicate count ()).mapM (fun _ => satisfy Char.isDigit)
  let value := digitsValue 10 found
  if least <= value && value <= greatest then return value else failure

/-- Whether a year has a 29th of February. -/
def isLeapYear (year : Nat) : Bool :=
  year % 4 == 0 && (year % 100 != 0 || year % 400 == 0)

def daysInMonth (year month : Nat) : Nat :=
  if month == 2 then (if isLeapYear year then 29 else 28)
  else if [4, 6, 9, 11].contains month then 30
  else 31

def date : Scan Unit := do
  let year <- fixedNumber 4 0 9999
  exactly "-"
  let month <- fixedNumber 2 1 12
  exactly "-"
  let _ <- fixedNumber 2 1 (daysInMonth year month)

/-- A time of day; the last second may be a leap second. -/
def time : Scan Unit := do
  let _ <- fixedNumber 2 0 23
  exactly ":"
  let _ <- fixedNumber 2 0 59
  exactly ":"
  let _ <- fixedNumber 2 0 60
  let _ <- attempt (do
    exactly "."
    let _ <- satisfy Char.isDigit
    takeWhile Char.isDigit)

/-- The distance of a time zone from the zero meridian. -/
def offset : Scan Unit :=
  exactly "Z" <|> exactly "z" <|> (do
    let _ <- satisfy (fun character => character == '+' || character == '-')
    let _ <- fixedNumber 2 0 23
    exactly ":"
    let _ <- fixedNumber 2 0 59)

/-- A date, a time, or both with an optional offset. -/
def moment : Scan Unit :=
  (do
    date
    let _ <- attempt (do
      exactly "T" <|> exactly "t" <|> exactly " "
      time
      attempt offset))
  <|> time

end Toml
end BinaryTape
