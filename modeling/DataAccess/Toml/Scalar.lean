import DataAccess.Calendar.Reader
import DataAccess.Decimal.Reader
import DataAccess.Text.Hex
import DataAccess.Value.Document

/-!
# TOML scalars

Truth values, numbers, dates and times. Underscores may stand between digits. A date or time is
held as a text in one spelling: `T` between date and time, the fewest digits of a fraction, and
`Z` or a signed offset.
-/

namespace DataAccess.Toml

open Decimal Calendar Text

/-- The characters of scalars that are not strings. -/
def isWord (c : Char) : Bool :=
  c.isAlphanum || c = '_' || c = '+' || c = '-' || c = '.' || c = ':'

namespace Scalar

/-- A run of digits with underscores between them, as digits, and what follows it. -/
def digitRun? (isDigit : Char → Bool) : List Char → Option (List Char × List Char)
  | [] => none
  | c :: cs =>
    if !isDigit c then none
    else match cs with
      | '_' :: cs => (digitRun? isDigit cs).map fun (ds, r) => (c :: ds, r)
      | cs =>
        match digitRun? isDigit cs with
        | some (ds, r) => some (c :: ds, r)
        | none => some ([c], cs)

/-- The digits of a decimal integer, which has no leading zeros. -/
def wholeRun? (cs : List Char) : Option (List Char × List Char) :=
  match digitRun? Char.isDigit cs with
  | some ('0' :: _ :: _, _) => none
  | run => run

/-- An integer of 64 bits signed. -/
def bounded? (n : Int) : Option Document := if Value.fits n then some (.int n) else none

/-- A number in base 2, 8 or 16, after its mark. -/
def radix? (base : Nat) (cs : List Char) : Option Document :=
  let isDigit (c : Char) : Bool := (hexDigit? c).any (· < base)
  match digitRun? isDigit cs with
  | some (ds, []) => do bounded? (← ds.foldlM (fun n c => (hexDigit? c).map (base * n + ·)) 0 : Nat)
  | _ => none

def integer? (cs : List Char) : Option Document :=
  match cs with
  | '0' :: 'x' :: cs => radix? 16 cs
  | '0' :: 'o' :: cs => radix? 8 cs
  | '0' :: 'b' :: cs => radix? 2 cs
  | cs =>
    let (negative, cs) := takeSign cs
    match wholeRun? cs with
    | some (ds, []) => bounded? (if negative then -(value ds : Int) else value ds)
    | _ => none

/-- The exponent that ends a number. -/
def exponent? : List Char → Option Int
  | [] => some 0
  | c :: cs =>
    if c = 'e' ∨ c = 'E' then
      let (negative, cs) := takeSign cs
      match digitRun? Char.isDigit cs with
      | some (ds, []) => some (if negative then -(value ds : Int) else value ds)
      | _ => none
    else none

/-- A number with a fraction, an exponent or both. One that is too large is refused. -/
def decimal? (cs : List Char) : Option Document := do
  let (negative, cs) := takeSign cs
  let (whole, cs) ← wholeRun? cs
  let (fraction, cs) ← match cs with
    | [] => none
    | '.' :: cs => digitRun? Char.isDigit cs
    | cs => some ([], cs)
  let e ← exponent? cs
  let x := Scientific.toFloat ⟨value (whole ++ fraction), e - fraction.length⟩
  if negative then some (.float (-x))
  else if x.isInf then none
  else some (.float x)

def special? : List Char → Option Document
  | ['t', 'r', 'u', 'e'] => some (.bool true)
  | ['f', 'a', 'l', 's', 'e'] => some (.bool false)
  | cs =>
    let (negative, cs) := takeSign cs
    let x : Option Float := match cs with
      | ['i', 'n', 'f'] => some (Float.ofBits 0x7FF0000000000000)
      | ['n', 'a', 'n'] => some (Float.ofBits 0x7FF8000000000000)
      | _ => none
    x.map fun x => .float (if negative then -x else x)

/-- A date in its one spelling, and what follows it. -/
def date? (cs : List Char) : Option (List Char × List Char) := do
  let (y, cs) ← number? 4 4 cs
  let cs ← expect '-' cs
  let (m, cs) ← number? 2 2 cs
  let cs ← expect '-' cs
  let (d, cs) ← number? 2 2 cs
  return ((← Date.of? y m d).chars, cs)

/-- The digits of a fraction, nine at most and without zeros at the end, behind a point. -/
def fraction? : List Char → Option (List Char × List Char)
  | '.' :: cs =>
    let (ds, rest) := spanDigits cs
    let shown := ((ds.take 9).reverse.dropWhile (· = '0')).reverse
    if ds.isEmpty then none else some (if shown.isEmpty then [] else '.' :: shown, rest)
  | cs => some ([], cs)

/-- A time in its one spelling, and what follows it. -/
def time? (cs : List Char) : Option (List Char × List Char) := do
  let (h, cs) ← number? 2 2 cs
  let cs ← expect ':' cs
  let (m, cs) ← number? 2 2 cs
  let cs ← expect ':' cs
  let (s, cs) ← number? 2 2 cs
  if 24 ≤ h ∨ 60 ≤ m ∨ 61 ≤ s then none
  let (fraction, cs) ← fraction? cs
  return (padded 2 h ++ ':' :: padded 2 m ++ ':' :: padded 2 s ++ fraction, cs)

/-- The offset that ends a date and time. -/
def offset? : List Char → Option (List Char)
  | [] => some []
  | ['Z'] => some ['Z']
  | ['z'] => some ['Z']
  | c :: cs => do
    let (h, cs) ← number? 2 2 cs
    let cs ← expect ':' cs
    let (m, cs) ← number? 2 2 cs
    if 24 ≤ h ∨ 60 ≤ m ∨ ¬cs.isEmpty then none
    let sign ← if c = '+' then some '+' else if c = '-' then some '-' else none
    return (if h = 0 ∧ m = 0 then '+' else sign) :: padded 2 h ++ ':' :: padded 2 m

/-- A date, a date and time, or a time. -/
def moment? (cs : List Char) : Option (List Char) :=
  match date? cs with
  | some (d, []) => some d
  | some (d, c :: cs) =>
    if c = 'T' ∨ c = 't' ∨ c = ' ' then do
      let (t, cs) ← time? cs
      return d ++ 'T' :: t ++ (← offset? cs)
    else none
  | none =>
    match time? cs with
    | some (t, []) => some t
    | _ => none

def dateTime? (cs : List Char) : Option Document :=
  (moment? cs).map fun m => .table [(Value.dateTimeKey, .text (String.ofList m))]

/-- Reads a whole text as a scalar. -/
def read? (cs : List Char) : Option Document :=
  (special? cs).orElse fun _ => (dateTime? cs).orElse fun _ =>
  (integer? cs).orElse fun _ => decimal? cs

end Scalar

end DataAccess.Toml
