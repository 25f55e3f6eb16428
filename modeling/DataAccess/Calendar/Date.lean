/-!
# Dates

Days of the proleptic Gregorian calendar, and their number counted from the first day of 1970.
-/

namespace DataAccess

def isLeapYear (y : Int) : Bool := y % 4 == 0 && (y % 100 != 0 || y % 400 == 0)

/-- The length of a month; a month that does not exist has no days. -/
def daysInMonth (y : Int) (m : Nat) : Nat :=
  if m = 2 then if isLeapYear y then 29 else 28
  else if m ∈ [4, 6, 9, 11] then 30
  else if 1 ≤ m ∧ m ≤ 12 then 31
  else 0

namespace Date

def Valid (y : Int) (m d : Nat) : Prop :=
  -262143 ≤ y ∧ y ≤ 262142 ∧ 1 ≤ d ∧ d ≤ daysInMonth y m

instance (y : Int) (m d : Nat) : Decidable (Valid y m d) :=
  inferInstanceAs (Decidable (-262143 ≤ y ∧ y ≤ 262142 ∧ 1 ≤ d ∧ d ≤ daysInMonth y m))

end Date

structure Date where
  year : Int
  month : Nat
  day : Nat
  valid : Date.Valid year month day
deriving DecidableEq

namespace Date

def of? (y : Int) (m d : Nat) : Option Date := if h : Valid y m d then some ⟨y, m, d, h⟩ else none

@[simp] theorem of?_self (d : Date) : of? d.year d.month d.day = some d := by
  simp [of?, d.valid]

/-- Years are counted from March, so that the leap day ends one. -/
def dayNumber (d : Date) : Int :=
  let y := if d.month ≤ 2 then d.year - 1 else d.year
  let m := (d.month + 9) % 12
  365 * y + y / 4 - y / 100 + y / 400 + ((153 * m + 2) / 5 : Nat) + d.day - 719469

def ofDayNumber? (n : Int) : Option Date :=
  let z := n + 719468
  let era := z / 146097
  let doe := (z % 146097).toNat
  let yoe := (doe - doe / 1460 + doe / 36524 - doe / 146096) / 365
  let doy := doe - (365 * yoe + yoe / 4 - yoe / 100)
  let m := (5 * doy + 2) / 153
  let y := era * 400 + yoe
  of? (if m < 10 then y else y + 1) (if m < 10 then m + 3 else m - 9) (doy - (153 * m + 2) / 5 + 1)

/-- The date some days later or, for a negative number, earlier. -/
def shift? (d : Date) (days : Int) : Option Date :=
  if days = 0 then some d else ofDayNumber? (d.dayNumber + days)

@[simp] theorem shift?_zero (d : Date) : d.shift? 0 = some d := rfl

end Date

end DataAccess
