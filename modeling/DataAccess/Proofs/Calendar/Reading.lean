import DataAccess.Calendar.Reader
import DataAccess.Proofs.Decimal.Digits

/-!
# Reading temporal texts

Each part of the text of a temporal value is read back from the front of whatever follows it: a
number of fixed width, a year with or without a sign, a fraction, a date, a time.
-/

namespace DataAccess

open Decimal Text

theorem not_isBlank_of_isDigit {c : Char} (h : c.isDigit = true) : isBlank c = false := by
  simp only [Char.isDigit, Bool.and_eq_true, decide_eq_true_eq] at h
  have low : 48 ≤ c.toNat := h.1
  have high : c.toNat ≤ 57 := h.2
  simp only [isBlank, Bool.or_eq_false_iff, Bool.and_eq_false_iff, decide_eq_false_iff_not,
    beq_eq_false_iff_ne]
  omega

namespace Calendar

variable {cs ds rest : List Char} {least most n : Nat}

theorem dropBlank_of_isDigit {c : Char} (h : c.isDigit = true) : dropBlank (c :: cs) = c :: cs := by
  rw [dropBlank, List.dropWhile_cons_of_neg (by simp [not_isBlank_of_isDigit h])]

theorem number?_append (digits : ∀ c ∈ ds, c.isDigit = true) (enough : least ≤ ds.length)
    (fits : ds.length ≤ most) (stop : ds.length = most ∨ ∀ c ∈ rest.head?, c.isDigit = false) :
    number? least most (ds ++ rest) = some (value ds, rest) := by
  rw [number?, takeDigits_append digits fits stop]
  exact if_neg (Nat.not_lt.2 enough)

theorem number?_append_eq_none (digits : ∀ c ∈ ds, c.isDigit = true) (short : ds.length < least)
    (fits : ds.length ≤ most) (stop : ∀ c ∈ rest.head?, c.isDigit = false) :
    number? least most (ds ++ rest) = none := by
  rw [number?, takeDigits_append digits fits (.inr stop)]
  exact if_pos short

theorem number?_padded (enough : least ≤ most) (h : n < 10 ^ most) :
    number? least most (padded most n ++ rest) = some (n, rest) := by
  rw [number?_append (fun _ => isDigit_of_mem_padded) (by rwa [length_padded])
    (by rw [length_padded]) (.inl (length_padded _ _)), value_padded h]

theorem number?_eq_none {c : Char} (other : c.isDigit = false) (some_ : 0 < least) :
    number? least most (c :: cs) = none := by
  cases most <;> simp [number?, takeDigits, other, some_]

theorem lt_of_number? {rest : List Char} (read : number? least most cs = some (n, rest)) :
    n < 10 ^ most := by
  rw [number?] at read
  dsimp only at read
  split at read
  · cases read
  · cases read
    calc
      value (takeDigits most cs).1 < 10 ^ (takeDigits most cs).1.length :=
        value_lt fun _ => isDigit_of_mem_takeDigits
      _ ≤ 10 ^ most := Nat.pow_le_pow_right (by decide) (length_takeDigits_le most cs)

theorem exists_padded_cons (h : 0 < n) (m : Nat) :
    ∃ c cs, padded n m = c :: cs ∧ c.isDigit = true := by
  have nonempty : 0 < (padded n m).length := by rwa [length_padded]
  obtain ⟨c, cs, eq⟩ := List.exists_cons_of_length_pos nonempty
  exact ⟨c, cs, eq, isDigit_of_mem_padded (eq ▸ List.mem_cons_self)⟩

theorem dropBlank_padded (h : 0 < n) (m : Nat) :
    dropBlank (padded n m ++ rest) = padded n m ++ rest := by
  obtain ⟨c, cs, eq, digit⟩ := exists_padded_cons h m
  rw [eq, List.cons_append, dropBlank_of_isDigit digit]

theorem field?_padded (h : n < 100) : field? (padded 2 n ++ rest) = some (n, rest) := by
  rw [field?, dropBlank_padded (by decide), number?_padded (by decide) h]

theorem field?_eq_none {c : Char} (digit : c.isDigit = false) (blank : isBlank c = false) :
    field? (c :: cs) = none := by
  rw [field?, dropBlank, List.dropWhile_cons_of_neg (by simp [blank]),
    number?_eq_none digit (by decide)]

theorem time?_eq_none {c : Char} (digit : c.isDigit = false) (blank : isBlank c = false) :
    time? id (c :: cs) = none := by
  rw [time?, field?_eq_none digit blank]
  rfl

/-- An offset is less than a day. -/
theorem natAbs_lt_of_offset? {separator : List Char → Option (List Char)} {ahead : Int}
    (read : offset? separator cs = some (ahead, rest)) : ahead.natAbs < 1440 := by
  unfold offset? at read
  dsimp only at read
  -- Whatever the sign is, the same is read behind it.
  split at read
  case h_4 => cases read
  all_goals
    obtain ⟨⟨forward, _⟩, -, read⟩ := Option.bind_eq_some_iff.1 read
    obtain ⟨⟨hours, _⟩, -, read⟩ := Option.bind_eq_some_iff.1 read
    obtain ⟨_, -, read⟩ := Option.bind_eq_some_iff.1 read
    obtain ⟨⟨minutes, _⟩, -, read⟩ := Option.bind_eq_some_iff.1 read
    dsimp only at read
    split at read
    · cases read
    · cases read
      split <;> omega

/-- The signs that a fraction goes on with. -/
def EndsFraction (rest : List Char) : Prop := ∀ c ∈ rest.head?, c.isDigit = false ∧ c ≠ '.'

theorem fraction?_of_ends (h : EndsFraction rest) : fraction? rest = some (0, rest) := by
  unfold fraction?
  split
  · exact absurd rfl (h '.' rfl).2
  · rfl

theorem fraction?_point {width m : Nat} (some_ : 0 < width) (short : width ≤ 9)
    (h : m < 10 ^ width) (stop : EndsFraction rest) :
    fraction? ('.' :: padded width m ++ rest) = some (m * 10 ^ (9 - width), rest) := by
  have digits : ∀ c ∈ padded width m, c.isDigit = true := fun _ => isDigit_of_mem_padded
  have ends : ∀ c ∈ rest.head?, c.isDigit = false := fun c hc => (stop c hc).1
  have nonempty : (padded width m).isEmpty = false := by
    rw [List.isEmpty_eq_false_iff, ← List.length_pos_iff, length_padded]
    exact some_
  have spare : spanDigits rest = ([], rest) := spanDigits_append (List.forall_mem_nil _) ends
  rw [List.cons_append, fraction?, takeDigits_append digits (by rwa [length_padded]) (.inr ends)]
  simp [nonempty, value_padded h, spare]

/-- A fraction is read back in nanoseconds, however few digits it was written with. -/
theorem fraction?_fractionChars (h : n < 1000000000) (stop : EndsFraction rest) :
    fraction? (fractionChars n ++ rest) = some (n, rest) := by
  rw [fractionChars]
  split
  · subst n
    exact fraction?_of_ends stop
  · split
    · rw [fraction?_point (by decide) (by decide) (by omega) stop]
      simp only [Option.some.injEq, Prod.mk.injEq, and_true]
      omega
    · split
      · rw [fraction?_point (by decide) (by decide) (by omega) stop]
        simp only [Option.some.injEq, Prod.mk.injEq, and_true]
        omega
      · rw [fraction?_point (by decide) (by decide) (by omega) stop]
        simp

theorem year?_of_isDigit {c : Char} (h : c.isDigit = true) :
    year? (c :: cs) = (number? 1 4 (c :: cs)).map fun (y, cs) => (y, cs) := by
  rw [year?, dropBlank_of_isDigit h]
  split
  · rename_i eq
    cases eq
    cases h
  · rename_i eq
    cases eq
    cases h
  · rfl

theorem year?_minus :
    year? ('-' :: cs) = (number? 1 cs.length cs).map fun (y, cs) => (-(y : Int), cs) := rfl

theorem year?_plus :
    year? ('+' :: cs) = (number? 1 cs.length cs).map fun (y, cs) => ((y : Int), cs) := rfl

/-- A signed year is as long as its digits are. -/
theorem number?_atLeast (stop : ∀ c ∈ rest.head?, c.isDigit = false) :
    number? 1 (atLeast 4 n ++ rest).length (atLeast 4 n ++ rest) = some (n, rest) := by
  rw [number?_append (fun _ => isDigit_of_mem_atLeast) (length_atLeast_pos 4 n) (by simp)
    (.inr stop), value_atLeast]

theorem year?_yearChars {y : Int} (stop : ∀ c ∈ rest.head?, c.isDigit = false) :
    year? (yearChars y ++ rest) = some (y, rest) := by
  rw [yearChars]
  split
  · rename_i range
    obtain ⟨c, cs, eq, digit⟩ := exists_padded_cons (n := 4) (by decide) y.toNat
    have read : number? 1 4 (padded 4 y.toNat ++ rest) = some (y.toNat, rest) :=
      number?_padded (by decide) (by omega)
    rw [eq] at read ⊢
    rw [List.cons_append] at read ⊢
    rw [year?_of_isDigit digit, read]
    simp [range.1]
  · have read := number?_atLeast (n := y.natAbs) stop
    by_cases negative : y < 0
    · have size : -(y.natAbs : Int) = y := by omega
      rw [if_pos negative, List.cons_append, year?_minus, read]
      exact congrArg (fun z => some (z, rest)) size
    · have size : (y.natAbs : Int) = y := by omega
      rw [if_neg negative, List.cons_append, year?_plus, read]
      exact congrArg (fun z => some (z, rest)) size

end Calendar

open Calendar

namespace Date

theorem year_of_of? {y : Int} {m n : Nat} {d : Date} (h : of? y m n = some d) : d.year = y := by
  rw [of?] at h
  split at h
  · cases h
    rfl
  · cases h

theorem month_le (d : Date) : d.month ≤ 12 := by
  have days : 0 < daysInMonth d.year d.month := Nat.lt_of_lt_of_le d.valid.2.2.1 d.valid.2.2.2
  by_contra! late
  have none : daysInMonth d.year d.month = 0 := by
    rw [daysInMonth, if_neg (by omega), if_neg (by simp; omega), if_neg (by omega)]
  omega

theorem daysInMonth_le (y : Int) (m : Nat) : daysInMonth y m ≤ 31 := by
  rw [daysInMonth]
  grind

theorem day_le (d : Date) : d.day ≤ 31 :=
  Nat.le_trans d.valid.2.2.2 (daysInMonth_le _ _)

theorem month_lt (d : Date) : d.month < 100 := Nat.lt_of_le_of_lt d.month_le (by decide)

theorem day_lt (d : Date) : d.day < 100 := Nat.lt_of_le_of_lt d.day_le (by decide)

/-- A date is read back from the front of any text. -/
theorem date?_chars (d : Date) {gap : List Char → List Char}
    (stays : ∀ cs, gap ('-' :: cs) = '-' :: cs) {rest : List Char} :
    date? gap (d.chars ++ rest) = some (d, rest) := by
  have year (cs : List Char) : year? (yearChars d.year ++ '-' :: cs) = some (d.year, '-' :: cs) :=
    year?_yearChars (by simp)
  have month (cs : List Char) : field? (padded 2 d.month ++ cs) = some (d.month, cs) :=
    field?_padded d.month_lt
  have day : field? (padded 2 d.day ++ rest) = some (d.day, rest) := field?_padded d.day_lt
  simp [chars, date?, year, month, day, stays, expect]

end Date

namespace Time

theorem ofClock?_shown (t : Time) :
    ofClock? t.hour t.minute (t.second + t.nano / 1000000000) (t.nano % 1000000000) = some t := by
  obtain ⟨-, -, second, nano, leap⟩ := t.valid
  rcases Nat.lt_or_ge t.nano 1000000000 with ordinary | long
  · have shown : t.second + t.nano / 1000000000 = t.second := by omega
    rw [ofClock?, shown, if_neg (Nat.ne_of_lt second), Nat.mod_eq_of_lt ordinary, of?_self]
  · have last := leap long
    have shown : t.second + t.nano / 1000000000 = 60 := by omega
    have held : 1000000000 + t.nano % 1000000000 = t.nano := by omega
    rw [ofClock?, shown, if_pos rfl, held, ← last, of?_self]

theorem hour_lt (t : Time) : t.hour < 100 := Nat.lt_trans t.valid.1 (by decide)

theorem minute_lt (t : Time) : t.minute < 100 := Nat.lt_trans t.valid.2.1 (by decide)

theorem shown_lt (t : Time) : t.second + t.nano / 1000000000 < 100 := by
  obtain ⟨-, -, second, nano, -⟩ := t.valid
  omega

/-- A time is read back from the front of a text that does not go on with a fraction. -/
theorem time?_chars (t : Time) {gap : List Char → List Char}
    (stays : ∀ cs, gap (':' :: cs) = ':' :: cs) {rest : List Char} (stop : EndsFraction rest) :
    time? gap (t.chars ++ rest) = some (t, rest) := by
  have hour (cs : List Char) : field? (padded 2 t.hour ++ cs) = some (t.hour, cs) :=
    field?_padded t.hour_lt
  have minute (cs : List Char) : field? (padded 2 t.minute ++ cs) = some (t.minute, cs) :=
    field?_padded t.minute_lt
  have second (cs : List Char) : field? (padded 2 (t.second + t.nano / 1000000000) ++ cs) =
      some (t.second + t.nano / 1000000000, cs) := field?_padded t.shown_lt
  have fraction := fraction?_fractionChars (Nat.mod_lt t.nano (by decide)) stop
  simp [chars, time?, hour, minute, second, fraction, stays, expect, ofClock?_shown]

end Time

namespace Temporal

theorem dateTime?_chars (d : Date) {between : List Char → Option (List Char)} {rest : List Char} :
    dateTime? between (d.chars ++ rest) =
      whole? ((between rest).bind fun cs =>
        (time? id cs).bind fun (t, cs) => some (⟨d, t⟩, cs)) := by
  rw [dateTime?, d.date?_chars fun _ => rfl]
  rfl

end Temporal

end DataAccess
