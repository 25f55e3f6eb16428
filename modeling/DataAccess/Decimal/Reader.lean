import DataAccess.Decimal.Scientific

/-!
# Reading numbers

Decimal texts of integers and of binary numbers, which have names for the values that are no
decimals.
-/

namespace DataAccess.Decimal

/-- An optional sign at the front of a text: whether it is a minus, and the rest. -/
def takeSign : List Char → Bool × List Char
  | '-' :: cs => (true, cs)
  | '+' :: cs => (false, cs)
  | cs => (false, cs)

def integer? (s : String) : Option Int :=
  let (negative, cs) := takeSign s.toList
  if cs.isEmpty || !cs.all (·.isDigit) then none
  else some (if negative then -(value cs : Int) else value cs)

/-- A natural number, perhaps with a plus sign. -/
def natural? (s : String) : Option Nat :=
  match takeSign s.toList with
  | (true, _) => none
  | (false, cs) => if cs.isEmpty || !cs.all (·.isDigit) then none else some (value cs)

/-- The exponent part of a decimal, which has to end the text. -/
def exponent? : List Char → Option Int
  | [] => some 0
  | c :: cs =>
    if c = 'e' ∨ c = 'E' then
      let (negative, ds) := takeSign cs
      if ds.isEmpty || !ds.all (·.isDigit) then none
      else some (if negative then -(value ds : Int) else value ds)
    else none

/-- A decimal without its sign: digits with a point among, before or after them. -/
def unsigned? (cs : List Char) : Option Scientific :=
  let (whole, rest) := spanDigits cs
  let (fraction, rest) := match rest with
    | '.' :: rest => spanDigits rest
    | rest => ([], rest)
  if whole.isEmpty && fraction.isEmpty then none
  else (exponent? rest).map fun e => ⟨value (whole ++ fraction), e - fraction.length⟩

/-- What a text of a binary number stands for, apart from its sign. -/
inductive Magnitude where
  | infinite
  | notANumber
  | decimal (d : Scientific)

def magnitude? (cs : List Char) : Option Magnitude :=
  match String.ofList (cs.map Char.toLower) with
  | "inf" | "infinity" => some .infinite
  | "nan" => some .notANumber
  | _ => (unsigned? cs).map .decimal

namespace Magnitude

def toFloat : Magnitude → Float
  | infinite => Float.ofBits 0x7FF0000000000000
  | notANumber => Float.ofBits 0x7FF8000000000000
  | decimal d => d.toFloat

def toFloat32 : Magnitude → Float32
  | infinite => Float32.ofBits 0x7F800000
  | notANumber => Float32.ofBits 0x7FC00000
  | decimal d => d.toFloat32

end Magnitude

def float? (s : String) : Option Float :=
  let (negative, cs) := takeSign s.toList
  (magnitude? cs).map fun m => if negative then -m.toFloat else m.toFloat

def float32? (s : String) : Option Float32 :=
  let (negative, cs) := takeSign s.toList
  (magnitude? cs).map fun m => if negative then -m.toFloat32 else m.toFloat32

end DataAccess.Decimal
