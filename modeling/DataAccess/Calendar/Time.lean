import DataAccess.Calendar.Date

/-!
# Times of day and points in time

A leap second is held as second 59 with a billion or more nanoseconds. Points in time are ordered
by their place on the time line.
-/

namespace DataAccess

namespace Time

def Valid (h m s n : Nat) : Prop :=
  h < 24 ∧ m < 60 ∧ s < 60 ∧ n < 2000000000 ∧ (1000000000 ≤ n → s = 59)

instance (h m s n : Nat) : Decidable (Valid h m s n) :=
  inferInstanceAs
    (Decidable (h < 24 ∧ m < 60 ∧ s < 60 ∧ n < 2000000000 ∧ (1000000000 ≤ n → s = 59)))

end Time

structure Time where
  hour : Nat
  minute : Nat
  second : Nat
  nano : Nat
  valid : Time.Valid hour minute second nano
deriving DecidableEq

namespace Time

def of? (h m s n : Nat) : Option Time :=
  if v : Valid h m s n then some ⟨h, m, s, n, v⟩ else none

@[simp] theorem of?_self (t : Time) : of? t.hour t.minute t.second t.nano = some t := by
  simp [of?, t.valid]

/-- The time that a clock shows, where a leap second shows as second 60. -/
def ofClock? (h m s n : Nat) : Option Time :=
  if s = 60 then of? h m 59 (1000000000 + n) else of? h m s n

end Time

structure DateTime where
  date : Date
  time : Time
deriving DecidableEq

/-- A point in time, by its date and time in UTC. -/
structure Instant where
  utc : DateTime
deriving DecidableEq

/-- Increases from one nanosecond to the next, across all fields of the date and time. -/
def DateTime.rank (t : DateTime) : Int :=
  (((((t.date.year * 13 + t.date.month) * 32 + t.date.day) * 24 + t.time.hour) * 60
    + t.time.minute) * 60 + t.time.second) * 2000000000 + t.time.nano

instance : LE Instant := ⟨fun a b => a.utc.rank ≤ b.utc.rank⟩

instance (a b : Instant) : Decidable (a ≤ b) :=
  inferInstanceAs (Decidable (a.utc.rank ≤ b.utc.rank))

theorem Instant.le_trans {a b c : Instant} (h : a ≤ b) (h' : b ≤ c) : a ≤ c := Int.le_trans h h'

theorem Instant.le_total (a b : Instant) : a ≤ b ∨ b ≤ a := Int.le_total _ _

namespace Instant

/-- The instant at a local date and time, some minutes ahead of UTC. -/
def ofLocal? (t : DateTime) (ahead : Int) : Option Instant := do
  let minutes := t.time.hour * 60 + t.time.minute - ahead
  let date ← t.date.shift? (minutes / 1440)
  let minute := (minutes % 1440).toNat
  let time ← Time.of? (minute / 60) (minute % 60) t.time.second t.time.nano
  return ⟨date, time⟩

/-- The instant some seconds after the start of 1970. -/
def ofUnix? (seconds : Int) : Option Instant := do
  let date ← Date.ofDayNumber? (seconds / 86400)
  let second := (seconds % 86400).toNat
  let time ← Time.of? (second / 3600) (second / 60 % 60) (second % 60) 0
  return ⟨date, time⟩

def epoch : Instant :=
  ⟨⟨1970, 1, 1, by decide⟩, ⟨0, 0, 0, 0, by decide⟩⟩

end Instant

end DataAccess
