import DataAccess.Decimal.Digits

/-!
# Decimal numbers

Numbers as digits and a power of ten, with the binary numbers nearest to them. A number beyond the
range of a binary format becomes an infinity, and one below it zero.
-/

namespace DataAccess.Decimal

/-- The decimal number `digits · 10 ^ exponent`. -/
structure Scientific where
  digits : Nat
  exponent : Int
deriving DecidableEq

namespace Scientific

/-- The number of places before the point, or, when it is negative, of zeros after it. -/
def order (d : Scientific) : Int := d.exponent + (chars d.digits).length

/-- The nearest binary number of 64 bits; far out of range the order alone decides. -/
def toFloat (d : Scientific) : Float :=
  if d.digits = 0 ∨ d.order < -330 then 0
  else if 310 < d.order then Float.ofBits 0x7FF0000000000000
  else Float.ofScientific d.digits (d.exponent < 0) d.exponent.natAbs

/-- The nearest binary number of 32 bits. It is found in one step, since rounding to 64 bits before
can end on the wrong side. -/
def toFloat32 (d : Scientific) : Float32 :=
  if d.digits = 0 ∨ d.order < -50 then 0
  else if 40 < d.order then Float32.ofBits 0x7F800000
  else Float32.ofScientific d.digits (d.exponent < 0) d.exponent.natAbs

end Scientific

end DataAccess.Decimal
