import DataAccess.Document.Basic
import DataAccess.Decimal.Reader

/-!
# JSON numbers

A number without fraction and exponent that fits 64 bits is an integer. Any other takes its
leading digits as long as they fit 64 bits unsigned, and scales them by one power of ten; the two
roundings can miss the nearest binary number by a unit in the last place.
-/

namespace DataAccess.Json

open Decimal

structure Number where
  negative : Bool
  whole : List Char
  fraction : List Char
  exponent : Int
  /-- Whether the text has neither fraction nor exponent. -/
  plain : Bool

/-- Takes in digits as long as the number fits 64 bits; returns it with the digits left over. -/
def absorb (n : Nat) : List Char → Nat × List Char
  | [] => (n, [])
  | c :: cs =>
    let m := 10 * n + digitValue c
    if m < UInt64.size then absorb m cs else (n, c :: cs)

/-- Scales by a power of ten, in steps of 308 places downwards. Nothing beyond the range. -/
def scale? (x : Float) (e : Int) : Option Float :=
  if 0 ≤ e then
    if e ≤ 308 then
      let y := x * Float.ofScientific 1 false e.toNat
      if y.isInf then none else some y
    else if x == 0 then some x else none
  else if -308 ≤ e then some (x / Float.ofScientific 1 false (-e).toNat)
  else if x == 0 then some x
  else scale? (x / Float.ofScientific 1 false 308) (e + 308)
termination_by e.natAbs
decreasing_by omega

namespace Number

def float? (n : Number) : Option Float :=
  let (significand, excess) := absorb 0 n.whole
  let (significand, lost) := absorb significand n.fraction
  let places : Int := excess.length - (n.fraction.length - lost.length : Nat) + n.exponent
  (scale? (Float.ofNat significand) places).map fun x => if n.negative then -x else x

def document (n : Number) : Document :=
  let size := Decimal.value n.whole
  if n.plain ∧ !n.negative ∧ size < UInt64.size then .int size
  else if n.plain ∧ n.negative ∧ 0 < size ∧ size ≤ 0x8000000000000000 then .int (-size)
  else match n.float? with
    | some x => .float x
    | none => .fault

end Number

/-- The exponent part that ends a number, if there is one; nothing if it has no digits. -/
def exponent? : List Char → Option (Option Int)
  | [] => some none
  | c :: cs =>
    if c = 'e' ∨ c = 'E' then
      let (negative, ds) := takeSign cs
      if ds.isEmpty || !ds.all (·.isDigit) then none
      else some (some (if negative then -(Decimal.value ds : Int) else Decimal.value ds))
    else none

/-- Reads the whole of a text as a number. It has no plus sign, no leading zeros, and digits on
both sides of a point. -/
def number? (cs : List Char) : Option Number := do
  let (negative, cs) := match cs with
    | '-' :: cs => (true, cs)
    | cs => (false, cs)
  let (whole, cs) := spanDigits cs
  if whole.isEmpty ∨ whole.head? = some '0' ∧ whole.length ≠ 1 then none
  let (fraction, cs) := match cs with
    | '.' :: cs => (spanDigits cs).map some id
    | cs => (none, cs)
  if fraction = some [] then none
  let exponent ← exponent? cs
  return { negative, whole
           fraction := fraction.getD []
           exponent := exponent.getD 0
           plain := fraction.isNone && exponent.isNone }

end DataAccess.Json
