import DataAccess.Proofs.Sql.Lexing
import Mathlib.Data.List.Infix

/-!
# Quoting in SQL

SQL has strings between single quotes and identifiers between double quotes, and a mark inside
either is written twice. A text between parentheses is a group of its own when its first parenthesis
is matched by its last character and it holds no separator and no start of a comment. One pass over
what stands inside finds this out (`closesLast_enclosed_iff`).
-/

namespace DataAccess.Sql

/-- The marks around strings and around identifiers. -/
def quotes : List Char := ['\'', '"']

/-- A part of a text as SQL reads it: a string or an identifier, or a character outside them. -/
inductive Lexeme where
  | quoted (mark : Char) (body : List Char)
  | char (c : Char)
deriving DecidableEq

/-- The lexemes of a text; none if a string or an identifier is left open. -/
def lexemes? : List Char → Option (List Lexeme)
  | [] => some []
  | c :: cs =>
    if c ∈ quotes then
      match _ : undoubled? c cs with
      | none => none
      | some (body, rest) => (lexemes? rest).map (.quoted c body :: ·)
    else (lexemes? cs).map (.char c :: ·)
termination_by cs => cs.length
decreasing_by
  · exact Nat.lt_succ_of_lt (length_lt_of_undoubled? ‹_›)
  · exact Nat.lt_succ_self _

section Lexemes

variable {c mark : Char} {cs body rest : List Char} {ls : List Lexeme}

theorem mem_doubled (h : c ∈ doubled mark cs) : c = mark ∨ c ∈ cs := by
  induction cs with
  | nil => cases h
  | cons d cs ih =>
    rw [doubled] at h
    split at h
    · rcases List.mem_cons.1 h with eq | h
      · exact .inl eq
      · rcases List.mem_cons.1 h with eq | h
        · exact .inl eq
        · exact (ih h).imp_right (List.mem_cons_of_mem d)
    · rcases List.mem_cons.1 h with rfl | h
      · exact .inr List.mem_cons_self
      · exact (ih h).imp_right (List.mem_cons_of_mem d)

theorem count_doubled (mark : Char) (cs : List Char) :
    (doubled mark cs).count mark = 2 * cs.count mark := by
  induction cs with
  | nil => rfl
  | cons c cs ih =>
    rw [doubled]
    split
    · rename_i same
      rw [same, List.count_cons_self, List.count_cons_self, List.count_cons_self, ih]
      omega
    · rename_i other
      rw [List.count_cons_of_ne other, List.count_cons_of_ne other, ih]

theorem eq_of_undoubled? (h : undoubled? mark cs = some (body, rest)) :
    cs = doubled mark body ++ mark :: rest := by
  fun_induction undoubled? mark cs generalizing body with
  | case1 => cases h
  | case2 =>
    cases h
    rfl
  | case3 => cases h
  | case4 ds ih =>
    obtain ⟨⟨body', rest'⟩, read, eq⟩ := Option.map_eq_some_iff.mp h
    cases eq
    simp [doubled, ih read]
  | case5 d ds other =>
    cases h
    rfl
  | case6 c d ds other ih =>
    obtain ⟨⟨body', rest'⟩, read, eq⟩ := Option.map_eq_some_iff.mp h
    cases eq
    simp [doubled, other, ih read]

/-- What is read of a text does not change with a further character behind it. -/
theorem undoubled?_concat (other : c ≠ mark) :
    undoubled? mark (cs ++ [c]) =
      (undoubled? mark cs).map fun (body, rest) => (body, rest ++ [c]) := by
  fun_induction undoubled? mark cs with
  | case1 => simp [undoubled?, other]
  | case2 => simp [undoubled?, other]
  | case3 d other' => simp [undoubled?, other, other']
  | case4 ds ih => simp [undoubled?, ih, Function.comp_def]
  | case5 d ds other' => simp [undoubled?, other']
  | case6 b d ds other' ih =>
    rw [List.cons_append] at ih
    simp [undoubled?, other', ih, Function.comp_def]

theorem lexemes?_nil : lexemes? [] = some [] := by rw [lexemes?]

theorem lexemes?_char (other : c ∉ quotes) :
    lexemes? (c :: cs) = (lexemes? cs).map (.char c :: ·) := by
  rw [lexemes?, if_neg other]

theorem lexemes?_quoted (quote : c ∈ quotes) :
    lexemes? (c :: cs) = (undoubled? c cs).bind fun (body, rest) =>
      (lexemes? rest).map (.quoted c body :: ·) := by
  rw [lexemes?, if_pos quote]
  split
  · rename_i read
    rw [read, Option.bind_none]
  · rename_i read
    rw [read, Option.bind_some]

/-- A first lexeme that is a character is the first character. -/
theorem head?_of_lexemes? (read : lexemes? cs = some ls) (first : ls.head? = some (.char c)) :
    cs.head? = some c := by
  cases cs with
  | nil =>
    rw [lexemes?_nil] at read
    cases read
    cases first
  | cons d cs =>
    by_cases quote : d ∈ quotes
    · rw [lexemes?_quoted quote] at read
      obtain ⟨⟨body, rest⟩, -, read⟩ := Option.bind_eq_some_iff.mp read
      obtain ⟨ks, -, rfl⟩ := Option.map_eq_some_iff.mp read
      cases first
    · rw [lexemes?_char quote] at read
      obtain ⟨ks, -, rfl⟩ := Option.map_eq_some_iff.mp read
      cases first
      rfl

/-- A character behind a text that does not quote is a lexeme behind those of the text. -/
theorem lexemes?_concat (other : c ∉ quotes) :
    lexemes? (cs ++ [c]) = (lexemes? cs).map (· ++ [.char c]) := by
  have ne {d : Char} (quote : d ∈ quotes) : c ≠ d := (ne_of_mem_of_not_mem quote other).symm
  fun_induction lexemes? cs with
  | case1 => simp [lexemes?_char other, lexemes?_nil]
  | case2 d cs quote read =>
    simp [lexemes?_quoted quote, undoubled?_concat (ne quote), read]
  | case3 d cs quote body rest read ih =>
    simp [lexemes?_quoted quote, undoubled?_concat (ne quote), read, ih, Function.comp_def]
  | case4 d cs other' ih =>
    simp [lexemes?_char other', ih, Function.comp_def]

end Lexemes

/-- The pairs of characters that begin a comment. -/
def commentStarts : List (Char × Char) := [('-', '-'), ('/', '*')]

/-- How many parentheses are left open by a sequence of lexemes. -/
def nesting (ls : List Lexeme) : Int := ls.count (.char '(') - ls.count (.char ')')

/-- Lexemes with no separator and no start of a comment among them. -/
structure Harmless (ls : List Lexeme) : Prop where
  noSeparator : .char ';' ∉ ls
  noComment : ∀ m ∈ commentStarts, ¬[.char m.1, .char m.2] <:+: ls

/-- A sequence that begins with a parenthesis which its last lexeme and no earlier one matches. -/
structure ClosesLast (ls : List Lexeme) : Prop where
  opening : ls.head? = some (.char '(')
  closing : ls.getLast? = some (.char ')')
  inside : ∀ i, 0 < i → i < ls.length → 1 ≤ nesting (ls.take i)
  outside : nesting ls = 0
  harmless : Harmless ls

/-- A text that is a group of its own for SQL. -/
def IsGroup (cs : List Char) : Prop := ∃ ls, lexemes? cs = some ls ∧ ClosesLast ls

/-- A separator or the start of a comment stands here. -/
def Harms (l : Lexeme) (ls : List Lexeme) : Prop :=
  l = .char ';' ∨ ∃ m ∈ commentStarts, l = .char m.1 ∧ ls.head? = some (.char m.2)

instance (l : Lexeme) (ls : List Lexeme) : Decidable (Harms l ls) :=
  inferInstanceAs (Decidable (_ ∨ _))

/-- Whether lexemes at some depth of parentheses leave them by the end and not before, with no
separator and no start of a comment on the way. -/
def staysInside (depth : Nat) : List Lexeme → Bool
  | [] => depth = 0
  | l :: ls =>
    if Harms l ls then false
    else if l = .char '(' then staysInside (depth + 1) ls
    else if l = .char ')' then depth ≠ 0 && staysInside (depth - 1) ls
    else staysInside depth ls

section Nesting

variable {ls : List Lexeme} {l : Lexeme} {d : Nat}

@[simp] theorem nesting_nil : nesting [] = 0 := rfl

theorem nesting_append (ls ks : List Lexeme) : nesting (ls ++ ks) = nesting ls + nesting ks := by
  simp only [nesting, List.count_append]
  omega

theorem nesting_cons (l : Lexeme) (ls : List Lexeme) :
    nesting (l :: ls) = nesting [l] + nesting ls :=
  nesting_append [l] ls

theorem infix_pair_cons_iff {a b : Lexeme} :
    [a, b] <:+: l :: ls ↔ l = a ∧ ls.head? = some b ∨ [a, b] <:+: ls := by
  have first : [a, b] <+: l :: ls ↔ l = a ∧ ls.head? = some b := by
    rw [List.cons_prefix_cons, eq_comm]
    cases ls <;> simp [eq_comm]
  rw [List.infix_cons_iff, first]

theorem harmless_cons_iff : Harmless (l :: ls) ↔ ¬Harms l ls ∧ Harmless ls := by
  constructor
  · intro h
    refine ⟨?_, List.not_mem_of_not_mem_cons h.noSeparator, fun m hm => ?_⟩
    · rintro (rfl | ⟨m, hm, first, second⟩)
      · exact h.noSeparator List.mem_cons_self
      · exact h.noComment m hm (infix_pair_cons_iff.mpr (.inl ⟨first, second⟩))
    · exact fun inside => h.noComment m hm (infix_pair_cons_iff.mpr (.inr inside))
  · rintro ⟨here, rest⟩
    rw [Harms, not_or] at here
    refine ⟨List.not_mem_cons_of_ne_of_not_mem (Ne.symm here.1) rest.noSeparator, ?_⟩
    intro m hm inside
    rcases infix_pair_cons_iff.mp inside with ⟨first, second⟩ | inside
    · exact here.2 ⟨m, hm, first, second⟩
    · exact rest.noComment m hm inside

theorem forall_take_cons_iff {P : List Lexeme → Prop} :
    (∀ i, P ((l :: ls).take i)) ↔ P [] ∧ ∀ i, P (l :: ls.take i) := by
  constructor
  · exact fun h => ⟨h 0, fun i => h (i + 1)⟩
  · rintro ⟨zero, succ⟩ (_ | i)
    · exact zero
    · exact succ i

theorem nesting_nonneg_cons_iff :
    (∀ i, 0 ≤ d + nesting ((l :: ls).take i)) ↔
      ∀ i, 0 ≤ d + nesting [l] + nesting (ls.take i) := by
  rw [forall_take_cons_iff (P := fun ks => 0 ≤ (d : Int) + nesting ks)]
  simp only [nesting_nil, add_zero, Nat.cast_nonneg, true_and]
  refine forall_congr' fun i => ?_
  rw [nesting_cons, add_assoc]

theorem staysInside_quoted {mark : Char} {body : List Char} :
    staysInside d (.quoted mark body :: ls) = staysInside d ls := by
  simp [staysInside, Harms]

theorem staysInside_iff :
    staysInside d ls = true ↔
      Harmless ls ∧ (∀ i, 0 ≤ d + nesting (ls.take i)) ∧ d + nesting ls = 0 := by
  induction ls generalizing d with
  | nil =>
    have harmless : Harmless [] := ⟨by simp, by simp⟩
    simp [staysInside, harmless]
  | cons l ls ih =>
    rw [staysInside, harmless_cons_iff, nesting_nonneg_cons_iff, nesting_cons l ls,
      ← add_assoc]
    split
    · rename_i harm
      exact iff_of_false Bool.false_ne_true fun h => h.1.1 harm
    · rename_i harm
      rw [and_iff_right harm]
      split
      · rename_i opens
        have step : nesting [l] = 1 := by subst opens; rfl
        rw [ih, step, Nat.cast_succ]
      · split
        · rename_i closes
          have step : nesting [l] = -1 := by subst closes; rfl
          rw [step]
          cases d with
          | zero =>
            -- The depth is below zero as soon as this parenthesis is read.
            refine iff_of_false (by simp) fun h => ?_
            exact absurd (h.2.1 0) (by simp)
          | succ d =>
            rw [Nat.cast_succ, add_neg_cancel_right, ← ih]
            simp
        · rename_i opens closes
          have step : nesting [l] = 0 := by simp [nesting, opens, closes]
          rw [ih, step, add_zero]

/-- Lexemes between parentheses. -/
def enclosed (ls : List Lexeme) : List Lexeme := .char '(' :: ls ++ [.char ')']

theorem length_enclosed : (enclosed ls).length = ls.length + 2 := by simp [enclosed]

/-- Parentheses are no part of a separator or of the start of a comment. -/
theorem harmless_enclosed_iff : Harmless (enclosed ls) ↔ Harmless ls := by
  have separator : .char ';' ∉ enclosed ls ↔ .char ';' ∉ ls := by simp [enclosed]
  have comment (m : Char × Char) (hm : m ∈ commentStarts) :
      [.char m.1, .char m.2] <:+: enclosed ls ↔ [.char m.1, .char m.2] <:+: ls := by
    obtain ⟨first, second⟩ : m.1 ≠ '(' ∧ m.2 ≠ ')' := by
      revert m
      decide
    have atStart : Lexeme.char '(' ≠ .char m.1 := fun h => first (Lexeme.char.inj h).symm
    have atEnd : ¬[.char m.1, .char m.2] <:+ ls ++ [Lexeme.char ')'] := by
      rintro ⟨ks, eq⟩
      have last := congrArg List.getLast? eq
      rw [List.getLast?_append_cons, List.getLast?_concat] at last
      exact second (Lexeme.char.inj (Option.some.inj last))
    rw [enclosed, List.cons_append, infix_pair_cons_iff, or_iff_right (atStart ·.1),
      List.infix_concat_iff, or_iff_right atEnd]
  constructor
  · intro h
    exact ⟨separator.mp h.noSeparator, fun m hm => (comment m hm).not.mp (h.noComment m hm)⟩
  · intro h
    exact ⟨separator.mpr h.noSeparator, fun m hm => (comment m hm).not.mpr (h.noComment m hm)⟩

theorem nesting_take_enclosed {i : Nat} (h : i ≤ ls.length) :
    nesting ((enclosed ls).take (i + 1)) = 1 + nesting (ls.take i) := by
  rw [enclosed, List.cons_append, List.take_succ_cons, List.take_append_of_le_length h,
    nesting_cons]
  rfl

theorem nesting_enclosed : nesting (enclosed ls) = nesting ls := by
  simp [nesting, enclosed]

theorem closesLast_enclosed_iff : ClosesLast (enclosed ls) ↔ staysInside 0 ls = true := by
  rw [staysInside_iff, Nat.cast_zero, zero_add]
  simp only [zero_add]
  constructor
  · intro h
    refine ⟨harmless_enclosed_iff.mp h.harmless, fun i => ?_, nesting_enclosed ▸ h.outside⟩
    have inside := h.inside (min i ls.length + 1) (Nat.succ_pos _) (by
      rw [length_enclosed]
      omega)
    rw [nesting_take_enclosed (Nat.min_le_right _ _), ← List.take_eq_take_min] at inside
    omega
  · rintro ⟨harmless, inside, outside⟩
    refine ⟨rfl, List.getLast?_concat, fun i pos lt => ?_, nesting_enclosed.trans outside,
      harmless_enclosed_iff.mpr harmless⟩
    obtain ⟨j, rfl⟩ : ∃ j, i = j + 1 := ⟨i - 1, by omega⟩
    rw [length_enclosed] at lt
    rw [nesting_take_enclosed (by omega)]
    have := inside j
    omega

end Nesting

theorem isGroup_enclosed_iff {cs : List Char} :
    IsGroup ('(' :: cs ++ [')']) ↔ ∃ ls, lexemes? cs = some ls ∧ staysInside 0 ls = true := by
  have opening : '(' ∉ quotes := by decide
  have closing : ')' ∉ quotes := by decide
  have read_enclosed : lexemes? ('(' :: cs ++ [')']) = (lexemes? cs).map enclosed := by
    rw [List.cons_append, lexemes?_char opening, lexemes?_concat closing, Option.map_map]
    rfl
  simp only [IsGroup, read_enclosed, Option.map_eq_some_iff]
  constructor
  · rintro ⟨_, ⟨ls, read, rfl⟩, closes⟩
    exact ⟨ls, read, closesLast_enclosed_iff.mp closes⟩
  · rintro ⟨ls, read, inside⟩
    exact ⟨_, ⟨ls, read, rfl⟩, closesLast_enclosed_iff.mpr inside⟩

end DataAccess.Sql
