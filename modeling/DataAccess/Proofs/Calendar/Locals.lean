import DataAccess.Proofs.Calendar.Instants

/-!
# Texts of local times

Dates, times, and dates with a time have no offset. The forms are tried in turn, and none before its
own takes the text of such a value: RFC 3339 misses a time or an offset, a date with a time misses
the one or the other, and a date misses its hyphens. So all of them are read back
(`local_survives`).
-/

namespace DataAccess

open Decimal Text Calendar

theorem endsFraction_nil : EndsFraction [] := by simp [EndsFraction]

/-- A time has a colon where a date has a hyphen. -/
theorem Time.date?_chars_eq_none (t : Time) : date? id t.chars = none := by
  obtain ⟨c, cs, eq, digit⟩ := exists_padded_cons (by decide : 0 < 2) t.hour
  have hour (rest : List Char) : year? (padded 2 t.hour ++ ':' :: rest) =
      some ((t.hour : Int), ':' :: rest) := by
    have read : number? 1 4 (padded 2 t.hour ++ ':' :: rest) = some (t.hour, ':' :: rest) := by
      rw [number?_append (fun _ => isDigit_of_mem_padded) (by rw [length_padded]; decide)
        (by rw [length_padded]; decide) (.inr (by simp)), value_padded t.hour_lt]
    rw [eq, List.cons_append] at read ⊢
    rw [year?_of_isDigit digit, read, Option.map_some]
  simp only [chars, List.append_assoc, List.cons_append]
  rw [date?, hour]
  rfl

namespace Instant

/-- RFC 3339 wants a time behind a date. -/
theorem rfc3339?_date (d : Date) : rfc3339? d.chars = none := by
  by_cases common : IsCommonYear d.year
  · have month (cs : List Char) : number? 2 2 (padded 2 d.month ++ cs) = some (d.month, cs) :=
      number?_padded (by decide) d.month_lt
    have day : number? 2 2 (padded 2 d.day ++ []) = some (d.day, []) :=
      number?_padded (by decide) d.day_lt
    rw [List.append_nil] at day
    rw [rfc3339?, Date.chars, List.append_assoc]
    change _ = whole? none
    apply congrArg whole?
    refine bind_eq_of_some (d.number?_year common) ?_
    refine bind_eq_of_some rfl ?_
    refine bind_eq_of_some (month _) ?_
    refine bind_eq_of_some rfl ?_
    exact bind_eq_of_some day rfl
  · rw [← d.chars.append_nil]
    exact rfc3339?_uncommon common

/-- RFC 3339 wants a date before a time. -/
theorem rfc3339?_time (t : Time) : rfc3339? t.chars = none := by
  have year (rest : List Char) : number? 4 4 (padded 2 t.hour ++ ':' :: rest) = none := by
    apply number?_append_eq_none (fun _ => isDigit_of_mem_padded)
    · rw [length_padded]
      decide
    · rw [length_padded]
      decide
    · simp
  simp only [Time.chars, List.append_assoc, List.cons_append]
  rw [rfc3339?, year]
  rfl

/-- RFC 3339 wants an offset. -/
theorem rfc3339?_dateTime (t : DateTime) : rfc3339? t.chars = none := by
  by_cases common : IsCommonYear t.date.year
  · rw [← t.chars.append_nil, rfc3339?_append common endsFraction_nil]
    rfl
  · exact rfc3339?_uncommon common

end Instant

namespace Temporal

theorem dateTime?_date {between : List Char → Option (List Char)}
    (nothing : ∀ cs, between [] = some cs → cs = []) (d : Date) :
    dateTime? between d.chars = none := by
  rw [← d.chars.append_nil, dateTime?_chars]
  cases read : between [] with
  | none => rfl
  | some cs =>
    rw [nothing cs read]
    rfl

theorem dateTime?_time {between : List Char → Option (List Char)} (t : Time) :
    dateTime? between t.chars = none := by
  rw [dateTime?, t.date?_chars_eq_none]
  rfl

theorem ofChars?_date (d : Date) : ofChars? d.chars = some (date d) := by
  have withT : dateTime? (expect 'T') d.chars = none := dateTime?_date (by simp [expect]) d
  have withBlank : dateTime? (fun cs => some (dropBlank cs)) d.chars = none :=
    dateTime?_date (by simp [dropBlank]) d
  have own : whole? (date? id d.chars) = some d := by
    rw [← d.chars.append_nil, d.date?_chars fun _ => rfl]
    rfl
  simp [ofChars?, Instant.rfc3339?_date, withT, withBlank, own]

theorem ofChars?_time (t : Time) : ofChars? t.chars = some (time t) := by
  have dateOnly : whole? (date? id t.chars) = none := by
    rw [t.date?_chars_eq_none]
    rfl
  have own : whole? (time? id t.chars) = some t := by
    rw [← t.chars.append_nil, t.time?_chars (fun _ => rfl) endsFraction_nil]
    rfl
  simp [ofChars?, Instant.rfc3339?_time, dateTime?_time, dateOnly, own]

theorem ofChars?_dateTime (t : DateTime) : ofChars? t.chars = some (dateTime t) := by
  have own : dateTime? (expect 'T') t.chars = some t := by
    have read : time? id t.time.chars = some (t.time, []) := by
      rw [← t.time.chars.append_nil, t.time.time?_chars (fun _ => rfl) endsFraction_nil]
    rw [DateTime.chars, dateTime?_chars, expect, if_pos rfl, Option.bind_some, read]
    rfl
  simp [ofChars?, Instant.rfc3339?_dateTime, own]

/-- A value without an offset is read back from its own text, as the kind that it was. -/
theorem local_survives :
    (∀ d, parse? (date d).text = some (date d)) ∧ (∀ t, parse? (time t).text = some (time t)) ∧
      ∀ t, parse? (dateTime t).text = some (dateTime t) := by
  refine ⟨?_, ?_, ?_⟩
  · intro d
    rw [parse?_text]
    exact ofChars?_date d
  · intro t
    rw [parse?_text]
    exact ofChars?_time t
  · intro t
    rw [parse?_text]
    exact ofChars?_dateTime t

/-- A leap second before the year 0, to half a second. -/
example : (dateTime ⟨⟨-1, 12, 31, by decide⟩, ⟨23, 59, 59, 1500000000, by decide⟩⟩).text =
    "-0001-12-31T23:59:60.500" := by decide

end Temporal

end DataAccess
