import Licensing.Library.Calendar
import Licensing.Library.Decimal

-- Timestamps as text. Instants count from the Unix epoch.

namespace Rfc3339

open Decimal

-- Years of more or less than four digits are written as Go's `time.Time.Format` writes them.
def year (y : Int) : List Char :=
  if y < 0 then '-' :: padded 4 y.natAbs else padded 4 y.toNat

-- ECMAScript writes them with a sign and six digits.
def expandedYear (y : Int) : List Char :=
  if 0 ≤ y ∧ y ≤ 9999 then digits 4 y.toNat
  else (if y < 0 then '-' else '+') :: padded 6 y.natAbs

def timeOfDay (sod : Nat) : List Char :=
  digits 2 (sod / 3600) ++ ':' :: (digits 2 (sod / 60 % 60) ++ ':' :: digits 2 (sod % 60))

-- Date and time of day of a number of seconds, without fraction and zone.
def dateTime (year : Int → List Char) (s : Int) : List Char :=
  let d := Date.ofDays (s / 86400)
  year d.year ++ '-' :: (digits 2 d.month ++ '-' :: (digits 2 d.day ++ 'T' ::
    timeOfDay (s % 86400).toNat))

def fraction (w n : Nat) : List Char :=
  '.' :: (digits w n ++ ['Z'])

end Rfc3339
