import DataAccess.Proofs.Calendar.Reading
import DataAccess.Proofs.Calendar.Text
import DataAccess.Proofs.Success
import DataAccess.Proofs.Text.Trim

/-!
# Texts of instants

RFC 3339 has years of four digits. The text of an instant is read back as that instant in the years
0 to 9999. Outside them the year has a sign, and no form takes the text but the lenient one, for
stored instants; an offset can move an instant out of these years (`instant_survives_iff`).
-/

namespace DataAccess

open Decimal Text Calendar

/-- The years that are written with four digits and no sign. -/
def IsCommonYear (y : Int) : Prop := 0 ≤ y ∧ y ≤ 9999

instance (y : Int) : Decidable (IsCommonYear y) := inferInstanceAs (Decidable (0 ≤ y ∧ y ≤ 9999))

theorem yearChars_of_common {y : Int} (h : IsCommonYear y) : yearChars y = padded 4 y.toNat :=
  if_pos h

theorem exists_sign_of_not_common {y : Int} (h : ¬IsCommonYear y) :
    ∃ c cs, yearChars y = c :: cs ∧ c.isDigit = false ∧ isBlank c = false := by
  refine ⟨_, _, if_neg h, ?_⟩
  split <;> decide

theorem whole?_eq_some_iff {α : Type} {r : Option (α × List Char)} {a : α} :
    whole? r = some a ↔ r = some (a, []) := by
  rcases r with _ | ⟨b, _ | ⟨c, rest⟩⟩ <;> simp [whole?]

theorem Date.number?_year (d : Date) {rest : List Char} (common : IsCommonYear d.year) :
    number? 4 4 (yearChars d.year ++ rest) = some (d.year.toNat, rest) := by
  rw [yearChars_of_common common]
  apply number?_padded (by decide)
  have := common.2
  omega

namespace Instant

theorem ofLocal?_zero (t : DateTime) : ofLocal? t 0 = some ⟨t⟩ := by
  obtain ⟨hours, minutes, -⟩ := t.time.valid
  have day : ((t.time.hour * 60 + t.time.minute : Int)) / 1440 = 0 := by omega
  have minute : ((t.time.hour * 60 + t.time.minute : Int) % 1440).toNat =
      t.time.hour * 60 + t.time.minute := by omega
  have hourOf : (t.time.hour * 60 + t.time.minute) / 60 = t.time.hour := by omega
  have minuteOf : (t.time.hour * 60 + t.time.minute) % 60 = t.time.minute := by omega
  simp [ofLocal?, day, minute, hourOf, minuteOf]

/-- The lenient form takes any year. -/
theorem lenient?_chars (t : Instant) : lenient? t.chars = some t := by
  have date (cs : List Char) : date? dropBlank (t.utc.date.chars ++ 'T' :: cs) =
      some (t.utc.date, 'T' :: cs) := t.utc.date.date?_chars fun _ => rfl
  have time : time? dropBlank (t.utc.time.chars ++ ['Z']) = some (t.utc.time, ['Z']) :=
    t.utc.time.time?_chars (fun _ => rfl) (by simp [EndsFraction])
  rw [lenient?, whole?_eq_some_iff, chars, DateTime.chars, List.append_assoc, List.cons_append]
  refine bind_eq_of_some (date _) ?_
  refine bind_eq_of_some rfl ?_
  refine bind_eq_of_some time ?_
  refine bind_eq_of_some rfl ?_
  exact bind_eq_of_some (ofLocal?_zero t.utc) rfl

/-- What is read in RFC 3339 is a local time in a common year, less than a day from UTC. -/
theorem exists_local_of_rfc3339? {cs : List Char} {t : Instant} (read : rfc3339? cs = some t) :
    ∃ (here : DateTime) (ahead : Int),
      IsCommonYear here.date.year ∧ ahead.natAbs < 1440 ∧ ofLocal? here ahead = some t := by
  rw [rfc3339?, whole?_eq_some_iff] at read
  obtain ⟨⟨y, cs⟩, year, read⟩ := Option.bind_eq_some_iff.1 read
  obtain ⟨cs, -, read⟩ := Option.bind_eq_some_iff.1 read
  obtain ⟨⟨m, cs⟩, -, read⟩ := Option.bind_eq_some_iff.1 read
  obtain ⟨cs, -, read⟩ := Option.bind_eq_some_iff.1 read
  obtain ⟨⟨d, cs⟩, -, read⟩ := Option.bind_eq_some_iff.1 read
  obtain ⟨cs, -, read⟩ := Option.bind_eq_some_iff.1 read
  obtain ⟨⟨h, cs⟩, -, read⟩ := Option.bind_eq_some_iff.1 read
  obtain ⟨cs, -, read⟩ := Option.bind_eq_some_iff.1 read
  obtain ⟨⟨min, cs⟩, -, read⟩ := Option.bind_eq_some_iff.1 read
  obtain ⟨cs, -, read⟩ := Option.bind_eq_some_iff.1 read
  obtain ⟨⟨s, cs⟩, -, read⟩ := Option.bind_eq_some_iff.1 read
  obtain ⟨⟨n, cs⟩, -, read⟩ := Option.bind_eq_some_iff.1 read
  have zone : ∃ (ahead : Int) (rest : List Char), ahead.natAbs < 1440 ∧ (do
      let date ← Date.of? y m d
      let time ← Time.ofClock? h min s n
      return (← ofLocal? ⟨date, time⟩ ahead, rest)) = some (t, []) := by
    dsimp only at read
    split at read
    · exact ⟨0, _, by decide, read⟩
    · obtain ⟨⟨ahead, cs⟩, offset, read⟩ := Option.bind_eq_some_iff.1 read
      exact ⟨ahead, cs, natAbs_lt_of_offset? offset, read⟩
  obtain ⟨ahead, rest, short, read⟩ := zone
  obtain ⟨date, isDate, read⟩ := Option.bind_eq_some_iff.1 read
  obtain ⟨time, -, read⟩ := Option.bind_eq_some_iff.1 read
  obtain ⟨t', isInstant, eq⟩ := Option.bind_eq_some_iff.1 read
  cases eq
  refine ⟨⟨date, time⟩, ahead, ?_, short, isInstant⟩
  have four := lt_of_number? year
  rw [Date.year_of_of? isDate]
  exact ⟨Int.natCast_nonneg y, by omega⟩

/-- RFC 3339 reads a date and a time in a common year from the front of any text, and an offset from
what is left. -/
theorem rfc3339?_append {t : DateTime} {rest : List Char} (common : IsCommonYear t.date.year)
    (ends : EndsFraction rest) :
    rfc3339? (t.chars ++ rest) = whole? do
      let (ahead, cs) ← match zulu? rest with
        | some cs => some (0, cs)
        | none => offset? (expect ':') rest
      return (← ofLocal? t ahead, cs) := by
  obtain ⟨date, time⟩ := t
  have year (cs : List Char) : number? 4 4 (yearChars date.year ++ cs) =
      some (date.year.toNat, cs) := date.number?_year common
  have month (cs : List Char) : number? 2 2 (padded 2 date.month ++ cs) = some (date.month, cs) :=
    number?_padded (by decide) date.month_lt
  have day (cs : List Char) : number? 2 2 (padded 2 date.day ++ cs) = some (date.day, cs) :=
    number?_padded (by decide) date.day_lt
  have hour (cs : List Char) : number? 2 2 (padded 2 time.hour ++ cs) = some (time.hour, cs) :=
    number?_padded (by decide) time.hour_lt
  have minute (cs : List Char) :
      number? 2 2 (padded 2 time.minute ++ cs) = some (time.minute, cs) :=
    number?_padded (by decide) time.minute_lt
  have second (cs : List Char) :
      number? 2 2 (padded 2 (time.second + time.nano / 1000000000) ++ cs) =
        some (time.second + time.nano / 1000000000, cs) :=
    number?_padded (by decide) time.shown_lt
  have fraction := fraction?_fractionChars (Nat.mod_lt time.nano (by decide)) ends
  have size : (date.year.toNat : Int) = date.year := Int.toNat_of_nonneg common.1
  rw [rfc3339?]
  simp only [DateTime.chars, Date.chars, Time.chars, List.append_assoc, List.cons_append]
  apply congrArg whole?
  refine bind_eq_of_some (year _) ?_
  refine bind_eq_of_some rfl ?_
  refine bind_eq_of_some (month _) ?_
  refine bind_eq_of_some rfl ?_
  refine bind_eq_of_some (day _) ?_
  refine bind_eq_of_some rfl ?_
  refine bind_eq_of_some (hour _) ?_
  refine bind_eq_of_some rfl ?_
  refine bind_eq_of_some (minute _) ?_
  refine bind_eq_of_some rfl ?_
  refine bind_eq_of_some (second _) ?_
  refine bind_eq_of_some fraction ?_
  cases zulu? rest <;>
    simp only [size, Date.of?_self, Time.ofClock?_shown, Option.bind_eq_bind, Option.bind_some]

theorem rfc3339?_chars {t : Instant} (common : IsCommonYear t.utc.date.year) :
    rfc3339? t.chars = some t := by
  rw [chars, rfc3339?_append common (by simp [EndsFraction])]
  simp [zulu?, ofLocal?_zero, whole?]

/-- RFC 3339 has no years with a sign. -/
theorem rfc3339?_uncommon {d : Date} {rest : List Char} (uncommon : ¬IsCommonYear d.year) :
    rfc3339? (d.chars ++ rest) = none := by
  obtain ⟨c, cs, sign, digit, -⟩ := exists_sign_of_not_common uncommon
  rw [Date.chars, sign, List.cons_append, List.cons_append, List.cons_append, rfc3339?,
    number?_eq_none digit (by decide)]
  rfl

end Instant

namespace Temporal

theorem strip_chars (t : Temporal) : strip t.chars = t.chars := by
  apply strip_eq_self
  intro c hc
  rcases isTextChar_of_mem_chars hc with digit | sign
  · exact not_isBlank_of_isDigit digit
  · have each : ∀ d ∈ signs, isBlank d = false := by simp [signs, isBlank]
    exact each c sign

theorem parse?_text (t : Temporal) : parse? t.text = ofChars? t.chars := by
  rw [parse?, toList_text, strip_chars]

/-- No form takes a year with a sign together with the mark of UTC: the first asks for a digit, and
the others leave something over or come upon a sign where a number should be. -/
theorem ofChars?_chars_eq_none {t : Instant} (uncommon : ¬IsCommonYear t.utc.date.year) :
    ofChars? t.chars = none := by
  obtain ⟨c, cs, sign, digit, blank⟩ := exists_sign_of_not_common uncommon
  have parts : t.chars = t.utc.date.chars ++ 'T' :: (t.utc.time.chars ++ ['Z']) := by
    simp [Instant.chars, DateTime.chars]
  have strict : Instant.rfc3339? t.chars = none := by
    rw [parts]
    exact Instant.rfc3339?_uncommon uncommon
  have withT : dateTime? (expect 'T') t.chars = none := by
    rw [parts, dateTime?_chars, expect, if_pos rfl, Option.bind_some,
      Time.time?_chars _ (fun _ => rfl) (by simp [EndsFraction])]
    rfl
  have withBlank : dateTime? (fun cs => some (dropBlank cs)) t.chars = none := by
    rw [parts, dateTime?_chars, Option.bind_some, dropBlank, List.dropWhile_cons_of_neg (by decide),
      time?_eq_none (by decide) (by decide)]
    rfl
  have dateOnly : whole? (date? id t.chars) = none := by
    rw [parts, Date.date?_chars _ fun _ => rfl]
    rfl
  have timeOnly : whole? (time? id t.chars) = none := by
    rw [parts, Date.chars, sign, List.cons_append, List.cons_append, List.cons_append,
      time?_eq_none digit blank]
    rfl
  simp [ofChars?, strict, withT, withBlank, dateOnly, timeOnly]

/-- The text of an instant is read back exactly in the common years. -/
theorem parse?_text_instant (t : Instant) :
    parse? t.text = if IsCommonYear t.utc.date.year then some (instant t) else none := by
  have read : parse? t.text = ofChars? t.chars := parse?_text (instant t)
  rw [read]
  split
  · rename_i common
    rw [ofChars?, Instant.rfc3339?_chars common]
    rfl
  · rename_i uncommon
    exact ofChars?_chars_eq_none uncommon

/-- Only RFC 3339 makes instants. -/
theorem rfc3339?_of_parse? {s : String} {t : Instant} (read : parse? s = some (instant t)) :
    Instant.rfc3339? (strip s.toList) = some t := by
  simpa [parse?, ofChars?, Option.orElse_eq_or, Option.or_eq_some_iff] using read

/-- An instant that was read from a text is read back from its own text exactly when it is in a
common year, and else its text has no form at all. The text that it was read from shows a common
year in any case, at an offset of less than a day. -/
theorem instant_survives_iff {s : String} {t : Instant} (read : parse? s = some (instant t)) :
    (parse? t.text = some (instant t) ↔ IsCommonYear t.utc.date.year) ∧
      (¬IsCommonYear t.utc.date.year → parse? t.text = none) ∧
      ∃ (here : DateTime) (ahead : Int),
        IsCommonYear here.date.year ∧ ahead.natAbs < 1440 ∧
          Instant.ofLocal? here ahead = some t := by
  have law := parse?_text_instant t
  refine ⟨?_, ?_, Instant.exists_local_of_rfc3339? (rfc3339?_of_parse? read)⟩
  · rw [law]
    simp
  · intro uncommon
    rw [law, if_neg uncommon]

theorem instant_survives_at_offset :
    parse? "2024-03-09T00:05:59.25+02:00" =
        some (instant ⟨⟨2024, 3, 8, by decide⟩, ⟨22, 5, 59, 250000000, by decide⟩⟩) ∧
      parse? (Instant.text ⟨⟨2024, 3, 8, by decide⟩, ⟨22, 5, 59, 250000000, by decide⟩⟩) =
        some (instant ⟨⟨2024, 3, 8, by decide⟩, ⟨22, 5, 59, 250000000, by decide⟩⟩) := by
  have read : parse? "2024-03-09T00:05:59.25+02:00" =
      some (instant ⟨⟨2024, 3, 8, by decide⟩, ⟨22, 5, 59, 250000000, by decide⟩⟩) := by
    decide +kernel
  exact ⟨read, (instant_survives_iff read).1.2 (by decide)⟩

/-- An hour ahead of UTC, the year 0 begins in the year -1. -/
theorem year_lost_by_offset :
    parse? "0000-01-01T00:00:00+01:00" =
        some (instant ⟨⟨-1, 12, 31, by decide⟩, ⟨23, 0, 0, 0, by decide⟩⟩) ∧
      Instant.text ⟨⟨-1, 12, 31, by decide⟩, ⟨23, 0, 0, 0, by decide⟩⟩ = "-0001-12-31T23:00:00Z" ∧
      parse? "-0001-12-31T23:00:00Z" = none := by
  refine ⟨?_, ?_, ?_⟩
  · decide +kernel
  · decide +kernel
  · decide +kernel

end Temporal

end DataAccess
