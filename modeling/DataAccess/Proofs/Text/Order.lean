import Mathlib.Data.String.Basic

/-!
# The order of texts

Texts are ordered by the code points of their characters. UTF-8 gives the smaller of two characters
the smaller byte at the first place where their bytes differ (`precedes_utf8EncodeChar`), so this is
also the order of the bytes (`bytes_lt_iff`).
-/

namespace DataAccess.Text

open String (utf8EncodeChar)

/-- The bytes of a text in UTF-8. -/
def bytes (s : String) : List UInt8 := s.toUTF8.data.toList

theorem bytes_eq (s : String) : bytes s = s.toList.flatMap utf8EncodeChar := by
  rw [bytes, String.toUTF8_eq_toByteArray, ← String.utf8Encode_toList, List.utf8Encode,
    List.toList_data_toByteArray]

/-- Bytes that are alike up to a place where both lists have a byte, and the first a smaller one. -/
inductive Precedes : List UInt8 → List UInt8 → Prop where
  | here {a b as bs} (lt : a < b) : Precedes (a :: as) (b :: bs)
  | later {a as bs} (rest : Precedes as bs) : Precedes (a :: as) (a :: bs)

section
variable {as bs : List UInt8} {m n : Nat}

theorem Precedes.append_lt (h : Precedes as bs) (us vs : List UInt8) : as ++ us < bs ++ vs := by
  induction h with
  | here lt => exact .rel lt
  | later _ ih => exact .cons ih

theorem not_precedes_nil : ¬Precedes as [] := nofun

theorem precedes_cons_iff (hm : m < 256) (hn : n < 256) :
    Precedes (UInt8.ofNat m :: as) (UInt8.ofNat n :: bs) ↔ m < n ∨ m = n ∧ Precedes as bs := by
  have lt : UInt8.ofNat m < UInt8.ofNat n ↔ m < n := by
    rw [UInt8.lt_iff_toNat_lt, UInt8.toNat_ofNat_of_lt' hm, UInt8.toNat_ofNat_of_lt' hn]
  have eq : UInt8.ofNat m = UInt8.ofNat n ↔ m = n := by
    rw [← UInt8.toNat_inj, UInt8.toNat_ofNat_of_lt' hm, UInt8.toNat_ofNat_of_lt' hn]
  rw [← lt, ← eq]
  constructor
  · intro h
    generalize UInt8.ofNat m = a, UInt8.ofNat n = b at h
    cases h with
    | here lt => exact .inl lt
    | later rest => exact .inr ⟨rfl, rest⟩
  · rintro (lt | ⟨eq, rest⟩)
    · exact .here lt
    · exact eq ▸ .later rest

end

theorem precedes_utf8EncodeChar {c d : Char} (h : c < d) :
    Precedes (utf8EncodeChar c) (utf8EncodeChar d) := by
  have lt : c.val.toNat < d.val.toNat := h
  have bound : d.val.toNat < 0x110000 := by
    rcases d.valid with low | ⟨-, high⟩
    · exact Nat.lt_trans low (by decide)
    · exact high
  -- Each byte holds the remainder of what the byte before it leaves out.
  have second (k : Nat) : k / 4096 = k / 64 / 64 := by omega
  have third (k : Nat) : k / 262144 = k / 64 / 64 / 64 := by omega
  unfold utf8EncodeChar
  generalize c.val.toNat = m, d.val.toNat = n at lt bound
  simp only [second, third]
  split_ifs
  all_goals
    simp (disch := omega) only [precedes_cons_iff, not_precedes_nil]
    omega

theorem flatMap_utf8EncodeChar_lt {cs ds : List Char} (h : cs < ds) :
    cs.flatMap utf8EncodeChar < ds.flatMap utf8EncodeChar := by
  induction h with
  | @nil d ds =>
    obtain ⟨b, bs, first⟩ := List.exists_cons_of_ne_nil (String.utf8EncodeChar_ne_nil (c := d))
    rw [List.flatMap_cons, first]
    exact .nil
  | rel lt => exact (precedes_utf8EncodeChar lt).append_lt _ _
  | cons _ ih => exact List.append_left_lt ih

theorem bytes_lt_of_lt {s t : String} (h : s < t) : bytes s < bytes t := by
  rw [bytes_eq, bytes_eq]
  exact flatMap_utf8EncodeChar_lt (String.lt_iff_toList_lt.mp h)

/-- Texts are in the order of their bytes. -/
theorem bytes_lt_iff {s t : String} : bytes s < bytes t ↔ s < t := by
  refine ⟨fun h => ?_, bytes_lt_of_lt⟩
  rcases lt_trichotomy s t with lt | rfl | gt
  · exact lt
  · exact absurd h (List.lt_irrefl _)
  · exact absurd h (List.lt_asymm (bytes_lt_of_lt gt))

end DataAccess.Text
