import DataAccess.Calendar.Temporal
import DataAccess.Proofs.Decimal.Digits

/-!
# Texts of temporal values

The text of a temporal value is made of digits and of a few signs.
-/

namespace DataAccess

/-- The signs in the texts of temporal values. -/
def Temporal.signs : List Char := ['-', '+', ':', '.', 'T', 'Z']

/-- Characters that the texts of temporal values are made of. -/
def Temporal.IsTextChar (c : Char) : Prop := c.isDigit = true ∨ c ∈ signs

open Decimal Temporal

variable {c : Char}

theorem isTextChar_of_mem_yearChars {y : Int} (h : c ∈ yearChars y) : IsTextChar c := by
  rw [yearChars] at h
  split at h
  · exact .inl (isDigit_of_mem_padded h)
  · rcases List.mem_cons.mp h with rfl | h
    · right
      split <;> decide
    · exact .inl (isDigit_of_mem_atLeast h)

theorem isTextChar_of_mem_fractionChars {n : Nat} (h : c ∈ fractionChars n) : IsTextChar c := by
  have point {width m : Nat} (h : c ∈ '.' :: padded width m) : IsTextChar c := by
    rcases List.mem_cons.mp h with rfl | h
    · exact .inr (by decide)
    · exact .inl (isDigit_of_mem_padded h)
  rw [fractionChars] at h
  split at h
  · cases h
  · split at h
    · exact point h
    · split at h <;> exact point h

theorem Date.isTextChar_of_mem_chars {d : Date} (h : c ∈ d.chars) : IsTextChar c := by
  simp only [Date.chars, List.cons_append, List.append_assoc, List.mem_append, List.mem_cons] at h
  rcases h with h | rfl | h | rfl | h
  · exact isTextChar_of_mem_yearChars h
  · exact .inr (by decide)
  · exact .inl (isDigit_of_mem_padded h)
  · exact .inr (by decide)
  · exact .inl (isDigit_of_mem_padded h)

theorem Time.isTextChar_of_mem_chars {t : Time} (h : c ∈ t.chars) : IsTextChar c := by
  simp only [Time.chars, List.cons_append, List.append_assoc, List.mem_append, List.mem_cons] at h
  rcases h with h | rfl | h | rfl | h | h
  · exact .inl (isDigit_of_mem_padded h)
  · exact .inr (by decide)
  · exact .inl (isDigit_of_mem_padded h)
  · exact .inr (by decide)
  · exact .inl (isDigit_of_mem_padded h)
  · exact isTextChar_of_mem_fractionChars h

theorem DateTime.isTextChar_of_mem_chars {t : DateTime} (h : c ∈ t.chars) : IsTextChar c := by
  rw [DateTime.chars, List.mem_append, List.mem_cons] at h
  rcases h with h | rfl | h
  · exact t.date.isTextChar_of_mem_chars h
  · exact .inr (by decide)
  · exact t.time.isTextChar_of_mem_chars h

theorem Temporal.isTextChar_of_mem_chars {t : Temporal} (h : c ∈ t.chars) : IsTextChar c := by
  cases t with
  | date d => exact d.isTextChar_of_mem_chars h
  | time t => exact t.isTextChar_of_mem_chars h
  | dateTime t => exact t.isTextChar_of_mem_chars h
  | instant t =>
    rw [Temporal.chars, Instant.chars, List.mem_append, List.mem_singleton] at h
    rcases h with h | rfl
    · exact t.utc.isTextChar_of_mem_chars h
    · exact .inr (by decide)

end DataAccess
