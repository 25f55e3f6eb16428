import DataAccess.Calendar.Time
import DataAccess.Decimal.Digits

/-!
# Temporal values

Dates, times and points in time as one type, with their ISO 8601 texts.
-/

namespace DataAccess

inductive Temporal where
  | date (d : Date)
  | time (t : Time)
  | dateTime (t : DateTime)
  | instant (t : Instant)
deriving DecidableEq

open Decimal

/-- Four digits, and a sign with at least four digits outside the years 0 to 9999. -/
def yearChars (y : Int) : List Char :=
  if 0 ≤ y ∧ y ≤ 9999 then padded 4 y.toNat
  else (if y < 0 then '-' else '+') :: atLeast 4 y.natAbs

/-- Nanoseconds as a fraction of 3, 6 or 9 digits, the fewest that lose nothing; none for zero. -/
def fractionChars (n : Nat) : List Char :=
  if n = 0 then []
  else if n % 1000000 = 0 then '.' :: padded 3 (n / 1000000)
  else if n % 1000 = 0 then '.' :: padded 6 (n / 1000)
  else '.' :: padded 9 n

namespace Date

def chars (d : Date) : List Char :=
  yearChars d.year ++ '-' :: padded 2 d.month ++ '-' :: padded 2 d.day

end Date

namespace Time

def chars (t : Time) : List Char :=
  padded 2 t.hour ++ ':' :: padded 2 t.minute ++ ':' ::
    padded 2 (t.second + t.nano / 1000000000) ++ fractionChars (t.nano % 1000000000)

end Time

namespace DateTime

def chars (t : DateTime) : List Char := t.date.chars ++ 'T' :: t.time.chars

end DateTime

namespace Instant

def chars (t : Instant) : List Char := t.utc.chars ++ ['Z']

def text (t : Instant) : String := String.ofList t.chars

end Instant

namespace Temporal

def chars : Temporal → List Char
  | date d => d.chars
  | time t => t.chars
  | dateTime t => t.chars
  | instant t => t.chars

def text (t : Temporal) : String := String.ofList t.chars

@[simp] theorem toList_text (t : Temporal) : t.text.toList = t.chars := String.toList_ofList

end Temporal

end DataAccess
