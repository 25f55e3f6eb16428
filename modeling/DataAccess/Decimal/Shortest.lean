import DataAccess.Decimal.Scientific

/-!
# Shortest decimals

The shortest decimal that reads back as a given binary number. Among the decimals with a given
number of digits only the two neighbours of the number can lie in the interval of reals that round
to it, so the search tries one, two, … digits and takes the first grid that hits the interval. All
arithmetic is on natural numbers.
-/

namespace DataAccess.Decimal

/-- A positive number with the interval of reals that round to it, over one denominator. The ends
belong to the interval when it is closed. -/
structure Interval where
  low : Nat
  value : Nat
  high : Nat
  denominator : Nat
  closed : Bool

/-- The interval of a positive finite number. In units of a quarter of the last place it reaches
two to either side, but only one down from a power of two. -/
def Interval.ofFloat (x : Float) : Interval :=
  let bits := x.toBits.toNat % 0x8000000000000000
  let biased := bits / 0x10000000000000
  let fraction := bits % 0x10000000000000
  let significand := if biased = 0 then fraction else fraction + 0x10000000000000
  let down := if fraction = 0 ∧ biased > 1 then 1 else 2
  let scale := Nat.pow 2 (max biased 1 - 1077)
  { low := (4 * significand - down) * scale
    value := 4 * significand * scale
    high := (4 * significand + 2) * scale
    denominator := Nat.pow 2 (1077 - max biased 1)
    closed := significand % 2 = 0 }

/-- The exponent `p` with `10 ^ (p - 1) ≤ value < 10 ^ p`. -/
def Interval.magnitude (i : Interval) : Int :=
  if i.denominator ≤ i.value then (chars (i.value / i.denominator)).length
  else
    let places := (chars (i.denominator / i.value)).length
    if i.denominator ≤ i.value * Nat.pow 10 (places - 1) then 2 - places else 1 - places

/-- The best decimal of the interval on the grid of multiples of `10 ^ exponent`; of two equally
near ones the upper, or else the even one. -/
def Interval.nearest? (i : Interval) (tieUp : Bool) (exponent : Int) : Option Scientific :=
  let up := Nat.pow 10 (-exponent).toNat
  let unit := i.denominator * Nat.pow 10 exponent.toNat
  let low := i.low * up
  let value := i.value * up
  let high := i.high * up
  let below := value / unit
  let hits (d : Nat) : Bool :=
    if i.closed then low ≤ d * unit && d * unit ≤ high else low < d * unit && d * unit < high
  let excess := 2 * (value - below * unit)
  match hits below, hits (below + 1) with
  | true, true =>
    if excess < unit ∨ (excess = unit ∧ !tieUp ∧ below % 2 = 0) then some ⟨below, exponent⟩
    else some ⟨below + 1, exponent⟩
  | true, false => some ⟨below, exponent⟩
  | false, true => some ⟨below + 1, exponent⟩
  | false, false => none

/-- The digits of a number without its trailing zeros, and the number of these. -/
def trimZeros (cs : List Char) : List Char × Nat :=
  let kept := (cs.reverse.dropWhile (· = '0')).reverse
  (kept, cs.length - kept.length)

/-- The shortest decimal that reads back as a positive finite number, nearest to it among those. -/
def shortest (tieUp : Bool) (x : Float) : Scientific :=
  let i := Interval.ofFloat x
  let p := i.magnitude
  ((List.range 17).findSome? fun (n : Nat) => i.nearest? tieUp (p - (n + 1))).getD ⟨0, 0⟩

end DataAccess.Decimal
