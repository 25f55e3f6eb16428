import DataAccess.Calendar.Temporal
import DataAccess.Text.Blank

/-!
# Reading dates and times

Three grammars. RFC 3339 proper has two-digit fields and an offset. Its lenient form, for stored
instants, allows short fields, blanks between the parts and further spellings of the offset. The
plain forms without an offset allow short fields and blanks before a number.
-/

namespace DataAccess

open Decimal Text

namespace Calendar

def expect (c : Char) : List Char → Option (List Char)
  | d :: cs => if d = c then some cs else none
  | [] => none

/-- A number of `min` to `max` digits. -/
def number? (min max : Nat) (cs : List Char) : Option (Nat × List Char) :=
  let (ds, rest) := takeDigits max cs
  if ds.length < min then none else some (value ds, rest)

/-- A fraction of a second in nanoseconds; digits after the ninth do not count. -/
def fraction? : List Char → Option (Nat × List Char)
  | '.' :: cs =>
    let (ds, rest) := takeDigits 9 cs
    if ds.isEmpty then none
    else some (value ds * Nat.pow 10 (9 - ds.length), (spanDigits rest).2)
  | cs => some (0, cs)

/-- An offset in minutes ahead of UTC: a sign, two digits of hours, a separator and two digits of
minutes. -/
def offset? (separator : List Char → Option (List Char)) (cs : List Char) :
    Option (Int × List Char) := do
  let (ahead, cs) ← match cs with
    | '+' :: cs => some (true, cs)
    | '-' :: cs => some (false, cs)
    | '−' :: cs => some (false, cs)
    | _ => none
  let (hours, cs) ← number? 2 2 cs
  let cs ← separator cs
  let (minutes, cs) ← number? 2 2 cs
  if 60 ≤ minutes ∨ 24 ≤ hours then none
  let size := hours * 60 + minutes
  return (if ahead then size else -size, cs)

def zulu? : List Char → Option (List Char)
  | 'Z' :: cs => some cs
  | 'z' :: cs => some cs
  | _ => none

def separator? : List Char → Option (List Char)
  | 'T' :: cs => some cs
  | 't' :: cs => some cs
  | ' ' :: cs => some cs
  | _ => none

/-- A field of a plain form: blanks, then one or two digits. -/
def field? (cs : List Char) : Option (Nat × List Char) := number? 1 2 (dropBlank cs)

/-- A year has at most four digits, or a sign and any number of them. -/
def year? (cs : List Char) : Option (Int × List Char) :=
  match dropBlank cs with
  | '-' :: cs => (number? 1 cs.length cs).map fun (y, cs) => (-y, cs)
  | '+' :: cs => (number? 1 cs.length cs).map fun (y, cs) => (y, cs)
  | cs => (number? 1 4 cs).map fun (y, cs) => (y, cs)

/-- A date in a plain form; `gap` passes over what may stand before a hyphen. -/
def date? (gap : List Char → List Char) (cs : List Char) : Option (Date × List Char) := do
  let (y, cs) ← year? cs
  let cs ← expect '-' (gap cs)
  let (m, cs) ← field? cs
  let cs ← expect '-' (gap cs)
  let (d, cs) ← field? cs
  return (← Date.of? y m d, cs)

/-- A time in a plain form; `gap` passes over what may stand before a colon. -/
def time? (gap : List Char → List Char) (cs : List Char) : Option (Time × List Char) := do
  let (h, cs) ← field? cs
  let cs ← expect ':' (gap cs)
  let (m, cs) ← field? cs
  let cs ← expect ':' (gap cs)
  let (s, cs) ← field? cs
  let (n, cs) ← fraction? cs
  return (← Time.ofClock? h m s n, cs)

/-- The value of a reading that leaves nothing over. -/
def whole? (r : Option (α × List Char)) : Option α :=
  match r with
  | some (a, []) => some a
  | _ => none

end Calendar

open Calendar

namespace Instant

/-- Reads RFC 3339 proper. -/
def rfc3339? (cs : List Char) : Option Instant := whole? do
  let (y, cs) ← number? 4 4 cs
  let cs ← expect '-' cs
  let (m, cs) ← number? 2 2 cs
  let cs ← expect '-' cs
  let (d, cs) ← number? 2 2 cs
  let cs ← separator? cs
  let (h, cs) ← number? 2 2 cs
  let cs ← expect ':' cs
  let (min, cs) ← number? 2 2 cs
  let cs ← expect ':' cs
  let (s, cs) ← number? 2 2 cs
  let (n, cs) ← fraction? cs
  let (ahead, cs) ← match zulu? cs with
    | some cs => some (0, cs)
    | none => offset? (expect ':') cs
  let date ← Date.of? y m d
  let time ← Time.ofClock? h min s n
  return (← ofLocal? ⟨date, time⟩ ahead, cs)

/-- Passes over the letters `UTC` in either case. -/
def utc? : List Char → Option (List Char)
  | u :: t :: c :: cs =>
    if u.toLower = 'u' ∧ t.toLower = 't' ∧ c.toLower = 'c' then some cs else none
  | _ => none

/-- Reads the lenient form of RFC 3339. -/
def lenient? (cs : List Char) : Option Instant := whole? do
  let (date, cs) ← date? dropBlank cs
  let cs ← separator? cs
  let (time, cs) ← time? dropBlank cs
  let cs := dropBlank cs
  let (ahead, cs) ← match utc? cs, zulu? cs with
    | some cs, _ => some (0, cs)
    | none, some cs => some (0, cs)
    | none, none => offset? (fun cs => some (cs.dropWhile fun c => c = ':' || isBlank c)) cs
  return (← ofLocal? ⟨date, time⟩ ahead, dropBlank cs)

end Instant

namespace Temporal

/-- A date and a time with a given reading of what stands between them. -/
def dateTime? (between : List Char → Option (List Char)) (cs : List Char) : Option DateTime :=
  whole? do
    let (d, cs) ← date? id cs
    let cs ← between cs
    let (t, cs) ← time? id cs
    return (⟨d, t⟩, cs)

/-- Tries the forms in turn: an instant, a date and time with `T` or with a blank between them, a
date, a time. -/
def ofChars? (cs : List Char) : Option Temporal :=
  ((Instant.rfc3339? cs).map instant).orElse fun _ =>
  ((dateTime? (expect 'T') cs).map dateTime).orElse fun _ =>
  ((dateTime? (fun cs => some (dropBlank cs)) cs).map dateTime).orElse fun _ =>
  ((whole? (date? id cs)).map date).orElse fun _ =>
  (whole? (time? id cs)).map time

/-- Reads a text after trimming it. -/
def parse? (s : String) : Option Temporal := ofChars? (strip s.toList)

end Temporal

end DataAccess
