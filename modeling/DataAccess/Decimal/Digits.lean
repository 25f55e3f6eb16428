/-!
# Decimal digits

Reading and writing of natural numbers in decimal, with and without a fixed width.
-/

namespace DataAccess.Decimal

def digitChar (d : Nat) : Char := Char.ofNat (48 + d)

def digitValue (c : Char) : Nat := c.toNat - 48

/-- The number that a run of digits writes. -/
def value (cs : List Char) : Nat := cs.foldl (fun n c => 10 * n + digitValue c) 0

def chars (n : Nat) : List Char := (Nat.repr n).toList

/-- The last `width` digits of a number, with leading zeros. -/
def padded : Nat → Nat → List Char
  | 0, _ => []
  | width + 1, n => padded width (n / 10) ++ [digitChar (n % 10)]

/-- All digits of a number, with leading zeros up to a width. -/
def atLeast (width n : Nat) : List Char :=
  let cs := chars n
  List.replicate (width - cs.length) '0' ++ cs

/-- Splits off the digits at the front of a text, at most `max` of them. -/
def takeDigits : Nat → List Char → List Char × List Char
  | 0, cs => ([], cs)
  | _ + 1, [] => ([], [])
  | max + 1, c :: cs =>
    if c.isDigit then
      let (ds, rest) := takeDigits max cs
      (c :: ds, rest)
    else ([], c :: cs)

/-- Splits off all digits at the front of a text. -/
def spanDigits (cs : List Char) : List Char × List Char :=
  (cs.takeWhile (·.isDigit), cs.dropWhile (·.isDigit))

end DataAccess.Decimal
