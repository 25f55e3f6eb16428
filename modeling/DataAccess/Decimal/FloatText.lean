import DataAccess.Decimal.Shortest

/-!
# Texts of binary numbers

How a binary number is written: with the fewest digits that read back, positionally for moderate
sizes and with an exponent otherwise. A `FloatText` holds the decisions of one format.
-/

namespace DataAccess.Decimal

structure FloatText where
  /-- Of two equally near shortest decimals, take the upper one, else the even one. -/
  tieUp : Bool
  /-- The least exponent of the leading digit that is written positionally; the greatest is 15. -/
  leastExponent : Int
  /-- Whether a positive exponent has a sign. -/
  plus : Bool

/-- Numbers in diagnostics and in readable SQL. -/
def FloatText.display : FloatText := ⟨true, -4, false⟩

namespace FloatText

def positional (ds : List Char) (lead : Int) : List Char :=
  if lead < 0 then "0.".toList ++ List.replicate (-lead - 1).toNat '0' ++ ds
  else
    let whole := lead.toNat + 1
    if ds.length ≤ whole then ds ++ List.replicate (whole - ds.length) '0' ++ ".0".toList
    else ds.take whole ++ '.' :: ds.drop whole

def scientific (t : FloatText) (ds : List Char) (lead : Int) : List Char :=
  let mantissa := match ds with
    | d :: e :: es => d :: '.' :: e :: es
    | ds => ds
  let sign := if lead < 0 then ['-'] else if t.plus then ['+'] else []
  mantissa ++ 'e' :: sign ++ chars lead.natAbs

/-- The digits of a positive finite number. -/
def magnitude (t : FloatText) (x : Float) : List Char :=
  let d := shortest t.tieUp x
  let (ds, zeros) := trimZeros (chars d.digits)
  let lead := d.exponent + zeros + ds.length - 1
  if t.leastExponent ≤ lead ∧ lead ≤ 15 then positional ds lead else t.scientific ds lead

def write (t : FloatText) (x : Float) : String :=
  if x.isNaN then "NaN"
  else
    let size := if x.isInf then "inf".toList
      else if x == 0 then "0.0".toList
      else t.magnitude x
    String.ofList (if x.toBits.toNat < 0x8000000000000000 then size else '-' :: size)

end FloatText

end DataAccess.Decimal
