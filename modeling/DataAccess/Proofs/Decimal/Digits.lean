import DataAccess.Decimal.Digits
import Mathlib.Data.List.Induction
import Mathlib.Data.Nat.Digits.Defs

/-!
# Digits

The digits of a number are read back as that number, and a text of a fixed width is made of digits
only.
-/

namespace DataAccess.Decimal

variable {n width : Nat} {c : Char} {cs : List Char}

theorem value_eq_ofDigitChars (cs : List Char) : value cs = Nat.ofDigitChars 10 cs 0 :=
  Nat.ofDigitChars_eq_foldl.symm

theorem chars_eq_toDigits (n : Nat) : chars n = Nat.toDigits 10 n := Nat.toList_repr

@[simp] theorem value_chars (n : Nat) : value (chars n) = n := by
  rw [value_eq_ofDigitChars, chars_eq_toDigits, Nat.ofDigitChars_ten_toDigits]

theorem chars_injective {m : Nat} (h : chars m = chars n) : m = n := by
  rw [← value_chars m, h, value_chars]

theorem isDigit_of_mem_chars (h : c ∈ chars n) : c.isDigit = true := by
  rw [chars_eq_toDigits] at h
  exact Nat.isDigit_of_mem_toDigits (by decide) (by decide) h

theorem length_chars_pos (n : Nat) : 0 < (chars n).length := by
  rw [chars_eq_toDigits]
  exact Nat.length_toDigits_pos

theorem lt_pow_length_chars (n : Nat) : n < 10 ^ (chars n).length := by
  have positive := length_chars_pos n
  rw [chars_eq_toDigits] at positive ⊢
  exact (Nat.length_toDigits_le_iff (by decide) positive).mp (Nat.le_refl _)

theorem pow_length_chars_le (positive : 0 < n) : 10 ^ ((chars n).length - 1) ≤ n := by
  by_contra! small
  have several : 0 < (chars n).length - 1 := by
    by_contra! single
    rw [Nat.le_zero.mp single] at small
    exact absurd positive (Nat.not_lt.mpr (Nat.le_of_lt_succ small))
  rw [chars_eq_toDigits] at small several
  have shorter := (Nat.length_toDigits_le_iff (by decide) several).mpr small
  omega

theorem isDigit_digitChar {d : Nat} (h : d < 10) : (digitChar d).isDigit = true := by
  decide +revert

theorem isDigit_of_mem_padded (h : c ∈ padded width n) : c.isDigit = true := by
  induction width generalizing n with
  | zero => cases h
  | succ width ih =>
    rw [padded, List.mem_append, List.mem_singleton] at h
    rcases h with h | rfl
    · exact ih h
    · exact isDigit_digitChar (Nat.mod_lt _ (by decide))

theorem isDigit_of_mem_atLeast (h : c ∈ atLeast width n) : c.isDigit = true := by
  rw [atLeast, List.mem_append] at h
  rcases h with h | h
  · rw [List.eq_of_mem_replicate h]
    rfl
  · exact isDigit_of_mem_chars h

theorem value_append_zeros (cs : List Char) (n : Nat) :
    value (cs ++ List.replicate n '0') = value cs * 10 ^ n := by
  rw [value_eq_ofDigitChars, value_eq_ofDigitChars, Nat.ofDigitChars_append,
    Nat.ofDigitChars_replicate_zero, Nat.mul_comm]

theorem value_zeros_append (n : Nat) (cs : List Char) :
    value (List.replicate n '0' ++ cs) = value cs := by
  rw [value_eq_ofDigitChars, value_eq_ofDigitChars, Nat.ofDigitChars_append,
    Nat.ofDigitChars_replicate_zero, Nat.mul_zero]

theorem digitValue_digitChar {d : Nat} (h : d < 10) : digitValue (digitChar d) = d := by
  decide +revert

@[simp] theorem length_padded (width n : Nat) : (padded width n).length = width := by
  induction width generalizing n with
  | zero => rfl
  | succ width ih => rw [padded, List.length_append, ih, List.length_singleton]

theorem value_concat (cs : List Char) (c : Char) :
    value (cs ++ [c]) = 10 * value cs + digitValue c := by
  rw [value, List.foldl_append, ← value, List.foldl_cons, List.foldl_nil]

theorem value_padded (h : n < 10 ^ width) : value (padded width n) = n := by
  induction width generalizing n with
  | zero => exact (Nat.lt_one_iff.mp h).symm
  | succ width ih =>
    have lower : n / 10 < 10 ^ width := Nat.div_lt_of_lt_mul (by rwa [← Nat.pow_succ'])
    rw [padded, value_concat, ih lower, digitValue_digitChar (Nat.mod_lt _ (by decide)),
      Nat.div_add_mod]

theorem digitValue_lt (digit : c.isDigit = true) : digitValue c < 10 := by
  simp only [Char.isDigit, Bool.and_eq_true, decide_eq_true_eq] at digit
  have high : c.toNat ≤ 57 := digit.2
  rw [digitValue]
  omega

theorem value_lt (digits : ∀ c ∈ cs, c.isDigit = true) : value cs < 10 ^ cs.length := by
  induction cs using List.reverseRecOn with
  | nil => exact Nat.zero_lt_one
  | append_singleton cs c ih =>
    obtain ⟨digits, digit⟩ := List.forall_mem_append.mp digits
    have last := digitValue_lt (digit c (List.mem_singleton_self c))
    have before := ih digits
    rw [value_concat, List.length_append, List.length_singleton, Nat.pow_succ]
    omega

@[simp] theorem value_atLeast (width n : Nat) : value (atLeast width n) = n := by
  rw [atLeast, value_zeros_append, value_chars]

theorem length_atLeast_pos (width n : Nat) : 0 < (atLeast width n).length := by
  rw [atLeast, List.length_append]
  exact Nat.lt_add_left _ (length_chars_pos n)

/-- Digits are split off up to the number allowed, or up to a character that is none. -/
theorem takeDigits_append {max : Nat} {rest : List Char} (digits : ∀ c ∈ cs, c.isDigit = true)
    (fits : cs.length ≤ max) (stop : cs.length = max ∨ ∀ c ∈ rest.head?, c.isDigit = false) :
    takeDigits max (cs ++ rest) = (cs, rest) := by
  induction cs generalizing max with
  | nil =>
    cases max with
    | zero => rfl
    | succ max =>
      cases rest with
      | nil => rfl
      | cons c rest =>
        have other : c.isDigit = false := stop.resolve_left (Nat.zero_ne_add_one max) c rfl
        simp [takeDigits, other]
  | cons c cs ih =>
    obtain ⟨max, rfl⟩ := Nat.exists_eq_add_one.mpr (Nat.lt_of_lt_of_le Nat.succ_pos' fits)
    rw [List.forall_mem_cons] at digits
    have rest := ih digits.2 (Nat.le_of_succ_le_succ fits) (stop.imp_left Nat.succ.inj)
    simp [takeDigits, digits.1, rest]

theorem isDigit_of_mem_takeDigits {max : Nat} (h : c ∈ (takeDigits max cs).1) :
    c.isDigit = true := by
  induction max generalizing cs with
  | zero => cases h
  | succ max ih =>
    cases cs with
    | nil => cases h
    | cons d cs =>
      rw [takeDigits] at h
      split at h
      · rcases List.mem_cons.mp h with rfl | h
        · assumption
        · exact ih h
      · cases h

theorem length_takeDigits_le (max : Nat) (cs : List Char) : (takeDigits max cs).1.length ≤ max := by
  induction max generalizing cs with
  | zero => exact Nat.le_refl 0
  | succ max ih =>
    cases cs with
    | nil => exact Nat.zero_le _
    | cons c cs =>
      rw [takeDigits]
      split
      · exact Nat.succ_le_succ (ih cs)
      · exact Nat.zero_le _

/-- What stands before the first character of another kind is split off. -/
theorem takeWhile_dropWhile_append {p : Char → Bool} {rest : List Char}
    (kind : ∀ c ∈ cs, p c = true) (stop : ∀ c ∈ rest.head?, p c = false) :
    (cs ++ rest).takeWhile p = cs ∧ (cs ++ rest).dropWhile p = rest := by
  rw [List.takeWhile_append_of_pos kind, List.dropWhile_append_of_pos kind]
  cases rest with
  | nil => simp
  | cons c rest =>
    have other : p c = false := stop c rfl
    simp [other]

/-- All digits at the front of a text are split off, and nothing else. -/
theorem spanDigits_append {rest : List Char} (digits : ∀ c ∈ cs, c.isDigit = true)
    (stop : ∀ c ∈ rest.head?, c.isDigit = false) : spanDigits (cs ++ rest) = (cs, rest) :=
  Prod.ext_iff.mpr (takeWhile_dropWhile_append digits stop)

section Integers

variable {m n : Int}

theorem toList_toString_ofNat (n : Nat) : (toString (Int.ofNat n)).toList = chars n := rfl

theorem toList_toString_negSucc (n : Nat) :
    (toString (Int.negSucc n)).toList = '-' :: chars (n + 1) := by
  rw [Int.toString_eq_repr, Int.repr, String.toList_append]
  rfl

theorem isDigit_or_eq_of_mem_toString {c : Char} (h : c ∈ (toString n).toList) :
    c.isDigit = true ∨ c = '-' := by
  cases n with
  | ofNat n =>
    rw [toList_toString_ofNat] at h
    exact .inl (isDigit_of_mem_chars h)
  | negSucc n =>
    rw [toList_toString_negSucc, List.mem_cons] at h
    exact h.symm.imp_left isDigit_of_mem_chars

theorem chars_ne_minus {k l : Nat} : chars k ≠ '-' :: chars l := by
  intro same
  have digit : '-'.isDigit = true := isDigit_of_mem_chars (same ▸ List.mem_cons_self)
  cases digit

theorem toList_toString_injective (h : (toString m).toList = (toString n).toList) : m = n := by
  cases m with
  | ofNat m =>
    rw [toList_toString_ofNat] at h
    cases n with
    | ofNat n =>
      rw [toList_toString_ofNat] at h
      exact congrArg Int.ofNat (chars_injective h)
    | negSucc n =>
      rw [toList_toString_negSucc] at h
      exact absurd h chars_ne_minus
  | negSucc m =>
    rw [toList_toString_negSucc] at h
    cases n with
    | ofNat n =>
      rw [toList_toString_ofNat] at h
      exact absurd h.symm chars_ne_minus
    | negSucc n =>
      rw [toList_toString_negSucc, List.cons.injEq] at h
      exact congrArg Int.negSucc (Nat.succ_injective (chars_injective h.2))

end Integers

end DataAccess.Decimal
