import DataAccess.Rule.Literal
import Mathlib.Data.List.Forall2

/-!
# Patterns

What a pattern matches in SQL, where `%` stands for any sequence of characters and `_` for any
single one. A safe pattern has one `%` at an end or none, and matches the texts that begin with the
rest of it, that end with it, or that are it. It matches no others exactly when it has no `_`
(`matchesPlainly_iff`).
-/

namespace DataAccess

/-- A pattern and a text that it matches. -/
inductive Matches : List Char → List Char → Prop
  | nil : Matches [] []
  | sequence {p t : List Char} (skipped : List Char) :
      Matches p t → Matches ('%' :: p) (skipped ++ t)
  | single {p t : List Char} (c : Char) : Matches p t → Matches ('_' :: p) (c :: t)
  | character {p t : List Char} {c : Char} :
      c ≠ '%' → c ≠ '_' → Matches p t → Matches (c :: p) (c :: t)

/-- A character of a pattern other than `%`, and one that it stands for. -/
def StandsFor (c d : Char) : Prop := c = '_' ∨ c = d

/-- A pattern without its `%`. -/
def wordOf (p : List Char) : List Char := p.filter (· ≠ '%')

/-- A pattern that matches the texts with its word at the start, those with its word at the end, or
its word only, depending on where its `%` is. -/
inductive MatchesPlainly (p : List Char) : Prop
  | start (shape : p = wordOf p ++ ['%']) (texts : ∀ t, Matches p t ↔ wordOf p <+: t)
  | finish (shape : p = '%' :: wordOf p) (texts : ∀ t, Matches p t ↔ wordOf p <:+ t)
  | whole (shape : p = wordOf p) (texts : ∀ t, Matches p t ↔ t = wordOf p)

variable {p s t u : List Char}

theorem matches_nil_iff : Matches [] t ↔ t = [] := by
  constructor
  · rintro ⟨⟩
    rfl
  · rintro rfl
    exact .nil

theorem matches_sequence_iff : Matches ('%' :: p) t ↔ ∃ u v, t = u ++ v ∧ Matches p v := by
  constructor
  · intro h
    cases h with
    | sequence skipped h => exact ⟨skipped, _, rfl, h⟩
    | character other => exact absurd rfl other
  · rintro ⟨u, v, rfl, h⟩
    exact .sequence u h

theorem matches_cons_iff {c : Char} (other : c ≠ '%') :
    Matches (c :: p) t ↔ ∃ d v, t = d :: v ∧ StandsFor c d ∧ Matches p v := by
  constructor
  · intro h
    cases h with
    | sequence => exact absurd rfl other
    | single d h => exact ⟨d, _, rfl, .inl rfl, h⟩
    | character _ _ h => exact ⟨c, _, rfl, .inr rfl, h⟩
  · rintro ⟨d, v, rfl, standsFor, h⟩
    by_cases wild : c = '_'
    · subst wild
      exact .single d h
    · obtain rfl := standsFor.resolve_left wild
      exact .character other wild h

/-- A pattern is matched from the left, one character for each of those before a `%`. -/
theorem matches_append_iff (free : '%' ∉ s) :
    Matches (s ++ p) t ↔ ∃ u v, t = u ++ v ∧ List.Forall₂ StandsFor s u ∧ Matches p v := by
  induction s generalizing t with
  | nil => simp
  | cons c s ih =>
    rw [List.mem_cons, not_or] at free
    rw [List.cons_append, matches_cons_iff (Ne.symm free.1)]
    simp only [ih free.2, List.forall₂_cons_left_iff]
    constructor
    · rintro ⟨d, _, rfl, here, u, v, rfl, rest, h⟩
      exact ⟨d :: u, v, rfl, ⟨d, u, here, rest, rfl⟩, h⟩
    · rintro ⟨_, v, rfl, ⟨d, u, here, rest, rfl⟩, h⟩
      exact ⟨d, u ++ v, rfl, here, u, v, rfl, rest, h⟩

theorem matches_word_iff (free : '%' ∉ s) : Matches s t ↔ List.Forall₂ StandsFor s t := by
  have h := matches_append_iff (p := []) (t := t) free
  simpa [matches_nil_iff] using h

theorem matches_start_iff (free : '%' ∉ s) :
    Matches (s ++ ['%']) t ↔ ∃ u, List.Forall₂ StandsFor s u ∧ u <+: t := by
  simp only [matches_append_iff free, matches_sequence_iff, matches_nil_iff]
  constructor
  · rintro ⟨u, v, rfl, h, -⟩
    exact ⟨u, h, List.prefix_append u v⟩
  · rintro ⟨u, h, v, rfl⟩
    exact ⟨u, v, rfl, h, v, [], by simp⟩

theorem matches_finish_iff (free : '%' ∉ s) :
    Matches ('%' :: s) t ↔ ∃ u, List.Forall₂ StandsFor s u ∧ u <:+ t := by
  simp only [matches_sequence_iff, matches_word_iff free]
  constructor
  · rintro ⟨v, u, rfl, h⟩
    exact ⟨u, h, List.suffix_append v u⟩
  · rintro ⟨u, h, v, rfl⟩
    exact ⟨v, u, rfl, h⟩

theorem forall₂_standsFor_self (s : List Char) : List.Forall₂ StandsFor s s :=
  List.forall₂_same.2 fun _ _ => .inr rfl

theorem forall₂_standsFor_iff (plain : '_' ∉ s) : List.Forall₂ StandsFor s u ↔ s = u := by
  constructor
  · intro h
    induction h with
    | nil => rfl
    | cons here _ ih =>
      rw [List.mem_cons, not_or] at plain
      rw [here.resolve_left (Ne.symm plain.1), ih plain.2]
  · rintro rfl
    exact forall₂_standsFor_self s

/-- A word with a `_` stands for another text as well. -/
theorem exists_other_of_wild (wild : '_' ∈ s) : ∃ u, List.Forall₂ StandsFor s u ∧ u ≠ s := by
  obtain ⟨before, after, rfl⟩ := List.append_of_mem wild
  refine ⟨before ++ 'x' :: after, ?_, by simp⟩
  exact List.rel_append (forall₂_standsFor_self before)
    (.cons (.inl rfl) (forall₂_standsFor_self after))

theorem wordOf_concat : wordOf (s ++ ['%']) = wordOf s := by simp [wordOf]

theorem wordOf_eq_self (free : '%' ∉ s) : wordOf s = s := by
  rw [wordOf, List.filter_eq_self]
  intro c hc
  simpa using ne_of_mem_of_not_mem hc free

/-- The safe patterns are a word, a word before a `%` and a word behind one. -/
theorem isSafePattern_iff :
    isSafePattern p = true ↔
      ∃ s, s ≠ [] ∧ '%' ∉ s ∧ (p = s ++ ['%'] ∨ p = '%' :: s ∨ p = s) := by
  constructor
  · intro safe
    rw [isSafePattern] at safe
    split at safe
    · rename_i none
      exact ⟨p, by simpa using safe, List.count_eq_zero.1 none, .inr (.inr rfl)⟩
    · rename_i one
      simp only [Bool.and_eq_true, Bool.or_eq_true, decide_eq_true_eq] at safe
      obtain ⟨long, first | last⟩ := safe
      · obtain ⟨s, rfl⟩ := List.head?_eq_some_iff.1 first
        refine ⟨s, ?_, ?_, .inr (.inl rfl)⟩
        · rintro rfl
          simp at long
        · simpa [List.count_eq_zero] using one
      · obtain ⟨s, rfl⟩ := List.getLast?_eq_some_iff.1 last
        refine ⟨s, ?_, ?_, .inl rfl⟩
        · rintro rfl
          simp at long
        · simpa [List.count_eq_zero] using one
    · cases safe
  · rintro ⟨s, nonempty, free, rfl | rfl | rfl⟩
    · have long := List.length_pos_of_ne_nil nonempty
      simp [isSafePattern, List.count_eq_zero_of_not_mem free, long]
    · have long := List.length_pos_of_ne_nil nonempty
      simp [isSafePattern, List.count_eq_zero_of_not_mem free, long]
    · simp [isSafePattern, List.count_eq_zero_of_not_mem free, nonempty]

theorem MatchesPlainly.of_plain (safe : isSafePattern p = true) (plain : '_' ∉ p) :
    MatchesPlainly p := by
  obtain ⟨s, -, free, rfl | rfl | rfl⟩ := isSafePattern_iff.1 safe
  · have word : wordOf (s ++ ['%']) = s := by rw [wordOf_concat, wordOf_eq_self free]
    have here : '_' ∉ s := fun h => plain (List.mem_append_left _ h)
    refine .start (by rw [word]) fun t => ?_
    simp [word, matches_start_iff free, forall₂_standsFor_iff here]
  · have word : wordOf ('%' :: s) = s := wordOf_eq_self free
    have here : '_' ∉ s := fun h => plain (List.mem_cons_of_mem _ h)
    refine .finish (by rw [word]) fun t => ?_
    simp [word, matches_finish_iff free, forall₂_standsFor_iff here]
  · have word := wordOf_eq_self free
    refine .whole word.symm fun t => ?_
    rw [word, matches_word_iff free, forall₂_standsFor_iff plain, eq_comm]

theorem percent_not_mem_wordOf (p : List Char) : '%' ∉ wordOf p := by simp [wordOf]

/-- A plain pattern's word stands for itself only, since all that it stands for is as long. -/
theorem MatchesPlainly.eq_word (plain : MatchesPlainly p)
    (h : List.Forall₂ StandsFor (wordOf p) u) : u = wordOf p := by
  have free := percent_not_mem_wordOf p
  have length := h.length_eq
  cases plain with
  | start shape texts =>
    have matched := (matches_start_iff free).2 ⟨u, h, List.prefix_rfl⟩
    rw [← shape, texts] at matched
    exact (matched.eq_of_length length).symm
  | finish shape texts =>
    have matched := (matches_finish_iff free).2 ⟨u, h, List.suffix_rfl⟩
    rw [← shape, texts] at matched
    exact (matched.eq_of_length length).symm
  | whole shape texts =>
    have matched := (matches_word_iff free).2 h
    rwa [← shape, texts] at matched

/-- A safe pattern matches plainly exactly when it has no `_`, which would stand for any
character. -/
theorem matchesPlainly_iff (safe : isSafePattern p = true) : MatchesPlainly p ↔ '_' ∉ p := by
  constructor
  · intro plain wild
    have inWord : '_' ∈ wordOf p := by simpa [wordOf] using wild
    obtain ⟨u, standsFor, other⟩ := exists_other_of_wild inWord
    exact other (plain.eq_word standsFor)
  · exact MatchesPlainly.of_plain safe

theorem matchesPlainly_beginning :
    isSafePattern "sales-%".toList = true ∧ MatchesPlainly "sales-%".toList :=
  ⟨by decide, (matchesPlainly_iff (by decide)).2 (by decide)⟩

/-- The pattern is safe and has `%` at its end only, and it matches a text that does not begin with
its word. -/
theorem other_beginning_matched :
    isSafePattern "a_%".toList = true ∧ Matches "a_%".toList "abc".toList ∧
      ¬wordOf "a_%".toList <+: "abc".toList ∧ ¬MatchesPlainly "a_%".toList := by
  refine ⟨by decide, ?_, by decide, fun plain => ?_⟩
  · exact .character (by decide) (by decide) (.single 'b' (.sequence ['c'] .nil))
  · have other := plain.eq_word (u := "ab".toList) (.cons (.inr rfl) (.cons (.inl rfl) .nil))
    exact absurd other (by decide)

end DataAccess
