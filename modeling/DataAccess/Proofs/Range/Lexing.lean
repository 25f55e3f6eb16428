import DataAccess.Range.Confinement
import Mathlib.Data.List.Basic
import Mathlib.Data.List.Induction
import Mathlib.Tactic.Ring

/-!
# Lexing

Which positions of a text are inside single-quoted literals, and how deep it is in parentheses. The
check finds no escape in a text exactly when the text is confined in these terms and has no
placeholder inside a literal (`escape?_eq_none_iff`).
-/

namespace DataAccess

/-- A text ends inside a literal when its quotes are odd in number. -/
def EndsQuoted (cs : List Char) : Prop := cs.count '\'' % 2 = 1

instance (cs : List Char) : Decidable (EndsQuoted cs) :=
  inferInstanceAs (Decidable (cs.count '\'' % 2 = 1))

/-- A position is inside a literal when an odd number of quotes precede it. -/
def Quoted (cs : List Char) (i : Nat) : Prop := EndsQuoted (cs.take i)

instance (cs : List Char) (i : Nat) : Decidable (Quoted cs i) :=
  inferInstanceAs (Decidable (EndsQuoted (cs.take i)))

/-- The positions at which a character stands outside literals. -/
def bare (c : Char) (cs : List Char) : List Nat :=
  (List.range cs.length).filter fun i => cs[i]? = some c ∧ ¬Quoted cs i

/-- How many of the parentheses outside literals are open at the end of a text. -/
def depth (cs : List Char) : Int := (bare '(' cs).length - (bare ')' cs).length

/-- The pairs of characters that begin or end a comment. -/
def commentMarks : List (Char × Char) := [('-', '-'), ('/', '*'), ('*', '/')]

/-- A text that stays within parentheses put around it. -/
structure Confined (cs : List Char) : Prop where
  closed : ¬EndsQuoted cs
  noSeparator : ∀ i, ¬Quoted cs i → cs[i]? ≠ some ';'
  noComment : ∀ i, ¬Quoted cs i → ∀ m ∈ commentMarks, ¬(cs[i]? = some m.1 ∧ cs[i + 1]? = some m.2)
  depth_nonneg : ∀ i, 0 ≤ depth (cs.take i)
  depth_eq : depth cs = 0

@[simp] theorem not_endsQuoted_nil : ¬EndsQuoted [] := by simp [EndsQuoted]

theorem endsQuoted_append {cs ds : List Char} :
    EndsQuoted (cs ++ ds) ↔ (EndsQuoted cs ↔ ¬EndsQuoted ds) := by
  simp only [EndsQuoted, List.count_append]
  omega

theorem endsQuoted_singleton {c : Char} : EndsQuoted [c] ↔ c = '\'' := by
  by_cases h : c = '\'' <;> simp [EndsQuoted, h]

theorem quoted_append_of_le {cs : List Char} (ds : List Char) {i : Nat} (h : i ≤ cs.length) :
    Quoted (cs ++ ds) i ↔ Quoted cs i := by
  rw [Quoted, Quoted, List.take_append_of_le_length h]

@[simp] theorem quoted_length {cs : List Char} : Quoted cs cs.length ↔ EndsQuoted cs := by
  rw [Quoted, List.take_length]

theorem quoted_append_length (cs ds : List Char) (i : Nat) :
    Quoted (cs ++ ds) (cs.length + i) ↔ (EndsQuoted cs ↔ ¬Quoted ds i) := by
  rw [Quoted, List.take_length_add_append, endsQuoted_append, Quoted]

theorem mem_bare {c : Char} {cs : List Char} {i : Nat} :
    i ∈ bare c cs ↔ cs[i]? = some c ∧ ¬Quoted cs i := by
  rw [bare, List.mem_filter, List.mem_range, decide_eq_true_eq]
  exact and_iff_right_of_imp fun h => (List.getElem?_eq_some_iff.1 h.1).1

@[simp] theorem bare_nil (c : Char) : bare c [] = [] := rfl

theorem bare_concat (c d : Char) (cs : List Char) :
    bare c (cs ++ [d]) = bare c cs ++ if d = c ∧ ¬EndsQuoted cs then [cs.length] else [] := by
  have before : ∀ i ∈ List.range cs.length,
      decide ((cs ++ [d])[i]? = some c ∧ ¬Quoted (cs ++ [d]) i) =
        decide (cs[i]? = some c ∧ ¬Quoted cs i) := by
    intro i hi
    have lt := List.mem_range.1 hi
    simp only [List.getElem?_append_left lt, quoted_append_of_le [d] (Nat.le_of_lt lt)]
  have last : Quoted (cs ++ [d]) cs.length ↔ EndsQuoted cs := by
    rw [quoted_append_of_le [d] (Nat.le_refl _), quoted_length]
  rw [bare, List.length_append, List.length_singleton, List.range_succ, List.filter_append,
    List.filter_congr before, ← bare, List.filter_singleton]
  simp [last]

@[simp] theorem depth_nil : depth [] = 0 := rfl

theorem depth_concat (cs : List Char) (d : Char) :
    depth (cs ++ [d]) = depth cs +
      if EndsQuoted cs then 0 else if d = '(' then 1 else if d = ')' then -1 else 0 := by
  simp only [depth, bare_concat, List.length_append]
  by_cases quoted : EndsQuoted cs
  · simp [quoted]
  · by_cases opens : d = '('
    · subst opens
      simp [quoted]
      ring
    · by_cases closes : d = ')'
      · subst closes
        simp [quoted]
        ring
      · simp [quoted, opens, closes]

theorem depth_append {cs : List Char} (h : ¬EndsQuoted cs) (ds : List Char) :
    depth (cs ++ ds) = depth cs + depth ds := by
  induction ds using List.reverseRecOn with
  | nil => simp
  | append_singleton ds d ih =>
    have state : EndsQuoted (cs ++ ds) ↔ EndsQuoted ds := by
      rw [endsQuoted_append]
      simp [h]
    simp only [← List.append_assoc, depth_concat, ih, state]
    ring

/-- What the check refuses does not stand at a position. -/
structure Harmless (cs : List Char) (i : Nat) : Prop where
  noSeparator : ¬Quoted cs i → cs[i]? ≠ some ';'
  noComment : ¬Quoted cs i → ∀ m ∈ commentMarks, ¬(cs[i]? = some m.1 ∧ cs[i + 1]? = some m.2)
  noPlaceholder : Quoted cs i → ¬(cs[i]? = some '$' ∧ cs[i + 1]? = some '\x7b')

/-- The same for a character, told from the one that follows it. -/
def Passes (quoted : Bool) (c : Char) (next : Option Char) : Prop :=
  if quoted then ¬(c = '$' ∧ next = some '\x7b')
  else c ≠ ';' ∧ ∀ m ∈ commentMarks, ¬(c = m.1 ∧ next = some m.2)

theorem passes_false_iff {c : Char} {next : Option Char} :
    Passes false c next ↔ c ≠ ';' ∧ (c = '-' → next ≠ some '-') ∧ (c = '/' → next ≠ some '*') ∧
      (c = '*' → next ≠ some '/') := by
  simp [Passes, commentMarks]

/-- The depth after a character. -/
def depthAfter (quoted : Bool) (depth : Nat) (c : Char) : Nat :=
  if quoted then depth else if c = '(' then depth + 1 else if c = ')' then depth - 1 else depth

/-- One step of the check. -/
theorem escapeFrom?_cons_eq_none_iff {quoted : Bool} {depth : Nat} {c : Char} {cs : List Char} :
    escapeFrom? quoted depth (c :: cs) = none ↔
      Passes quoted c cs.head? ∧ ¬(quoted = false ∧ c = ')' ∧ depth = 0) ∧
        escapeFrom? (quoted ^^ decide (c = '\'')) (depthAfter quoted depth c) cs = none := by
  by_cases quote : c = '\''
  · subst quote
    cases quoted <;> simp [escapeFrom?_cons, Passes, depthAfter, commentMarks]
  · cases quoted with
    | true =>
      by_cases placeholder : c = '$' ∧ cs.head? = some '\x7b'
      · simp [escapeFrom?_cons, Passes, placeholder]
      · simp [escapeFrom?_cons, Passes, depthAfter, quote, placeholder]
    | false =>
      by_cases opens : c = '('
      · subst opens
        simp [escapeFrom?_cons, Passes, depthAfter, commentMarks]
      · by_cases closes : c = ')'
        · subst closes
          cases depth <;> simp [escapeFrom?_cons, Passes, depthAfter, commentMarks]
        · rw [passes_false_iff]
          simp only [escapeFrom?_cons, depthAfter, quote, opens, closes]
          grind

theorem forall_le_iff {P : Nat → Prop} {n : Nat} :
    (∀ i, n ≤ i → P i) ↔ P n ∧ ∀ i, n + 1 ≤ i → P i := by
  constructor
  · exact fun h => ⟨h n (Nat.le_refl n), fun i hi => h i (Nat.le_of_succ_le hi)⟩
  · rintro ⟨first, rest⟩ i hi
    rcases Nat.eq_or_lt_of_le hi with rfl | lt
    · exact first
    · exact rest i lt

theorem harmless_length_iff {cs : List Char} {c : Char} {ds : List Char} :
    Harmless (cs ++ c :: ds) cs.length ↔ Passes (decide (EndsQuoted cs)) c ds.head? := by
  have here : (cs ++ c :: ds)[cs.length]? = some c := by simp
  have after : (cs ++ c :: ds)[cs.length + 1]? = ds.head? := by
    rw [List.getElem?_append_right (Nat.le_succ _)]
    simp [List.head?_eq_getElem?]
  have quoted : Quoted (cs ++ c :: ds) cs.length ↔ EndsQuoted cs := by
    rw [quoted_append_of_le _ (Nat.le_refl _), quoted_length]
  by_cases h : EndsQuoted cs
  · simp only [Passes, h, decide_true, if_true]
    constructor
    · intro harmless
      simpa [here, after] using harmless.noPlaceholder (quoted.2 h)
    · intro passes
      refine ⟨fun not => absurd (quoted.2 h) not, fun not => absurd (quoted.2 h) not, fun _ => ?_⟩
      simpa [here, after] using passes
  · simp only [Passes, h, decide_false, Bool.false_eq_true, if_false]
    constructor
    · intro harmless
      have := harmless.noComment (quoted.not.2 h)
      exact ⟨by simpa [here] using harmless.noSeparator (quoted.not.2 h),
        by simpa [here, after] using this⟩
    · rintro ⟨separator, comment⟩
      exact ⟨fun _ => by simpa [here] using separator,
        fun _ => by simpa [here, after] using comment, fun q => absurd (quoted.1 q) h⟩

theorem depth_concat_eq_depthAfter {cs : List Char} {c : Char} {d : Nat} (h : depth cs = d)
    (room : ¬(decide (EndsQuoted cs) = false ∧ c = ')' ∧ d = 0)) :
    depth (cs ++ [c]) = depthAfter (decide (EndsQuoted cs)) d c := by
  rw [depth_concat, h, depthAfter]
  by_cases quoted : EndsQuoted cs
  · simp [quoted]
  · by_cases opens : c = '('
    · simp [quoted, opens]
    · by_cases closes : c = ')'
      · simp only [quoted, closes, decide_false, true_and] at room
        simp only [quoted, closes, decide_false]
        simp
        omega
      · simp [quoted, opens, closes]

/-- The check of what follows a text, by what it finds at each position. The state of the check is
what the text ends in, which every further character keeps true. -/
theorem escapeFrom?_eq_none_iff (cs ds : List Char) {d : Nat} (hd : depth cs = d) :
    escapeFrom? (decide (EndsQuoted cs)) d ds = none ↔
      (∀ i, cs.length ≤ i → Harmless (cs ++ ds) i ∧ 0 ≤ depth ((cs ++ ds).take i)) ∧
        ¬EndsQuoted (cs ++ ds) ∧ depth (cs ++ ds) = 0 := by
  induction ds generalizing cs d with
  | nil =>
    rw [List.append_nil]
    have past : ∀ i, cs.length ≤ i → Harmless cs i ∧ 0 ≤ depth (cs.take i) := by
      intro i hi
      rw [List.take_of_length_le hi, hd]
      have none := List.getElem?_eq_none hi
      exact ⟨⟨by simp [none], by simp [none], by simp [none]⟩, Int.natCast_nonneg d⟩
    rw [and_iff_right past, hd, escapeFrom?]
    by_cases quoted : EndsQuoted cs <;> by_cases zero : d = 0 <;> simp [quoted, zero]
  | cons c ds ih =>
    have reassoc : cs ++ c :: ds = cs ++ [c] ++ ds := by simp
    have state :
        (decide (EndsQuoted cs) ^^ decide (c = '\'')) = decide (EndsQuoted (cs ++ [c])) := by
      simp only [endsQuoted_append, endsQuoted_singleton]
      by_cases h : EndsQuoted cs <;> by_cases h' : c = '\'' <;> simp [h, h']
    have here : 0 ≤ depth ((cs ++ c :: ds).take cs.length) := by
      rw [List.take_left, hd]
      exact Int.natCast_nonneg d
    rw [escapeFrom?_cons_eq_none_iff, forall_le_iff, harmless_length_iff, and_iff_left here, state]
    by_cases room : decide (EndsQuoted cs) = false ∧ c = ')' ∧ d = 0
    · have below : ¬0 ≤ depth ((cs ++ c :: ds).take (cs.length + 1)) := by
        obtain ⟨quoted, rfl, rfl⟩ := room
        rw [reassoc, List.take_left' (by simp), depth_concat, hd]
        simp [of_decide_eq_false quoted]
      constructor
      · exact fun h => absurd room h.2.1
      · exact fun h => absurd (h.1.2 _ (Nat.le_refl _)).2 below
    · rw [and_iff_right room, ih (cs ++ [c]) (depth_concat_eq_depthAfter hd room), ← reassoc,
        List.length_append, List.length_singleton, and_assoc]

theorem escape?_eq_none_iff {cs : List Char} :
    escape? cs = none ↔
      Confined cs ∧ ∀ i, Quoted cs i → ¬(cs[i]? = some '$' ∧ cs[i + 1]? = some '\x7b') := by
  have run := escapeFrom?_eq_none_iff [] cs depth_nil
  rw [decide_eq_false not_endsQuoted_nil, List.nil_append] at run
  rw [escape?, run]
  constructor
  · rintro ⟨each, closed, balanced⟩
    exact ⟨⟨closed, fun i => (each i (Nat.zero_le i)).1.noSeparator,
      fun i => (each i (Nat.zero_le i)).1.noComment, fun i => (each i (Nat.zero_le i)).2, balanced⟩,
      fun i => (each i (Nat.zero_le i)).1.noPlaceholder⟩
  · rintro ⟨confined, placeholder⟩
    exact ⟨fun i _ => ⟨⟨confined.noSeparator i, confined.noComment i, placeholder i⟩,
      confined.depth_nonneg i⟩, confined.closed, confined.depth_eq⟩

end DataAccess
