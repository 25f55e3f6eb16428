import DataAccess.Proofs.Sql.Condition
import DataAccess.Proofs.Sql.Grammar

/-!
# Conditions with bound values

The text of a condition with bound values is read as that condition, and its markers are numbered
from left to right (`Condition.prints`).
-/

namespace DataAccess.Sql

section Fragments

variable {k : Nat} {fs gs : List Fragment}

theorem values_append : values (fs ++ gs) = values fs ++ values gs := by
  induction fs with
  | nil => rfl
  | cons f fs ih =>
    cases f with
    | sql cs => exact ih
    | value l => exact congrArg (l :: ·) ih

theorem numbered_append :
    numbered k (fs ++ gs) = numbered k fs ++ numbered (k + (values fs).length) gs := by
  induction fs generalizing k with
  | nil => rfl
  | cons f fs ih =>
    cases f with
    | sql cs => rw [List.cons_append, numbered, numbered, values, ih, List.append_assoc]
    | value l =>
      rw [List.cons_append, numbered, numbered, values, ih, List.length_cons, List.append_assoc,
        Nat.add_right_comm, Nat.add_assoc]

end Fragments

namespace Expr

theorem values_column (q : Option String) (name : String) :
    values (column q name).fragments = [] := by
  cases q <;> rfl

theorem values_enclosed (outer : Link) (left : Bool) (inner : Option Link) (fs : List Fragment) :
    values (enclosed outer left inner fs) = values fs := by
  unfold enclosed
  split
  · split
    · rfl
    · simp [values_append, values]
  · rfl

theorem values_fragmentsTail (ls : List Literal) :
    values (fragmentsTail (ls.map literal)) = ls := by
  induction ls with
  | nil => rfl
  | cons l ls ih =>
    rw [List.map_cons, fragmentsTail, values_append, ih, fragments]
    rfl

end Expr

/-- Values are those of the markers from a given one on. -/
def Supplies (vs : List Literal) (k : Nat) (ls : List Literal) : Prop :=
  ∀ i l, ls[i]? = some l → valueAt vs (k + i) = some l

section Supplies

variable {vs ls ms : List Literal} {l : Literal} {k : Nat}

theorem supplies_self (vs : List Literal) : Supplies vs 1 vs := by
  intro i l h
  rw [Nat.add_comm]
  exact h

theorem Supplies.left (h : Supplies vs k (ls ++ ms)) : Supplies vs k ls := by
  intro i l found
  apply h
  rw [List.getElem?_append_left (List.getElem?_eq_some_iff.mp found).1, found]

theorem Supplies.right (h : Supplies vs k (ls ++ ms)) : Supplies vs (k + ls.length) ms := by
  intro i l found
  rw [Nat.add_assoc]
  apply h
  rw [List.getElem?_append_right (Nat.le_add_right _ _), Nat.add_sub_cancel_left, found]

theorem Supplies.head (h : Supplies vs k (l :: ls)) : valueAt vs k = some l := h 0 l rfl

theorem Supplies.tail (h : Supplies vs k (l :: ls)) : Supplies vs (k + 1) ls := by
  intro i m found
  rw [Nat.add_assoc, Nat.add_comm 1]
  exact h (i + 1) m found

end Supplies

/-- Fragments have their tokens, with markers numbered from a given one on. -/
structure Lexes (k : Nat) (fs : List Fragment) (ts : List Token) : Prop where
  lexes : LexesTo (numbered k fs) ts
  markers : ts.filterMap Token.marker? = List.range' k (values fs).length

namespace Lexes

variable {k : Nat} {fs gs : List Fragment} {ts us ss : List Token} {sep : List Char}

theorem value (k : Nat) (l : Literal) : Lexes k [.value l] [.marker k] where
  lexes := by simpa [numbered] using lexesTo_marker k
  markers := rfl

theorem column (k : Nat) (q : Option String) (name : String) :
    ∃ ts, Lexes k (Expr.column q name).fragments ts ∧
      ∀ rest, ColumnReading (ts ++ rest) (.column q name) rest := by
  cases q with
  | none =>
    refine ⟨[.name name], ⟨?_, rfl⟩, fun rest => .bare⟩
    simpa [Expr.fragments, numbered] using lexesTo_identifier name
  | some q =>
    refine ⟨[.name q, .sign '.', .name name], ⟨?_, rfl⟩, fun rest => .qualified⟩
    simpa [Expr.fragments, numbered] using lexesTo_qualified q name

theorem joined (left : Lexes k fs ts) (link : Separates sep ss)
    (unmarked : ss.filterMap Token.marker? = []) (right : Lexes (k + (values fs).length) gs us) :
    Lexes k (fs ++ .sql sep :: gs) (ts ++ ss ++ us) where
  lexes := by
    rw [numbered_append, numbered, ← List.append_assoc]
    exact left.lexes.joined link right.lexes
  markers := by
    rw [List.filterMap_append, List.filterMap_append, left.markers, unmarked, right.markers,
      values_append, values, List.length_append, List.append_nil, List.range'_append_1]

theorem closed (h : Lexes k fs ts) : Lexes k (fs ++ [.sql [')']]) (ts ++ [.sign ')']) where
  lexes := by
    rw [numbered_append, numbered, numbered, List.append_nil]
    exact h.lexes.closed
  markers := by
    simp [values_append, values, h.markers, Token.marker?]

theorem enclosed (h : Lexes k fs ts) :
    Lexes k (.sql ['('] :: fs ++ [.sql [')']]) (.sign '(' :: ts ++ [.sign ')']) where
  lexes := by
    rw [List.cons_append, numbered, numbered_append, numbered, numbered, List.append_nil]
    exact h.lexes.enclosed
  markers := by
    rw [List.cons_append, List.filterMap_cons_none rfl, h.closed.markers]
    rfl

end Lexes

theorem Link.filterMap_tokens (k : Link) : k.tokens.filterMap Token.marker? = [] := by
  cases k <;> rfl

/-- The level at which an expression is read without parentheses. -/
def Expr.level : Expr → Level
  | and _ _ => .conjunction
  | or _ _ => .disjunction
  | _ => .operand

section Levels

variable {vs : List Literal} {tight : Level} {ts rest : List Token} {e l r : Expr}
  {fs gs : List Fragment}

theorem Reading.loosened (h : Reading vs tight ts e rest) : Reading vs .disjunction ts e rest := by
  cases tight with
  | operand => exact .conjunction (.operand h)
  | conjunction => exact .conjunction h
  | disjunction => exact h

/-- Fragments are read as an expression wherever the values of their markers are supplied. -/
def Prints (vs : List Literal) (tight : Level) (fs : List Fragment) (e : Expr) : Prop :=
  ∀ k, Supplies vs k (values fs) →
    ∃ ts, Lexes k fs ts ∧ ∀ rest, Reading vs tight (ts ++ rest) e rest

theorem Prints.operand (h : Prints vs .operand fs e) : Prints vs .conjunction fs e := by
  intro k supplied
  obtain ⟨ts, lexed, reading⟩ := h k supplied
  exact ⟨ts, lexed, fun rest => .operand (reading rest)⟩

theorem Prints.loosened (h : Prints vs tight fs e) : Prints vs .disjunction fs e := by
  intro k supplied
  obtain ⟨ts, lexed, reading⟩ := h k supplied
  exact ⟨ts, lexed, fun rest => (reading rest).loosened⟩

theorem Prints.enclosed (h : Prints vs tight fs e) :
    Prints vs .operand (.sql ['('] :: fs ++ [.sql [')']]) e := by
  intro k supplied
  rw [values_append] at supplied
  obtain ⟨ts, lexed, reading⟩ := h k supplied.left
  refine ⟨_, lexed.enclosed, ?_⟩
  intro rest
  rw [List.cons_append, List.cons_append, List.append_assoc]
  exact .enclosed (reading _).loosened

theorem Prints.and (left : Prints vs .conjunction fs l) (right : Prints vs .operand gs r) :
    Prints vs .conjunction (fs ++ .sql Link.and.chars :: gs) (.and l r) := by
  intro k supplied
  rw [values_append] at supplied
  obtain ⟨ts, lexed, reading⟩ := left k supplied.left
  obtain ⟨us, lexed', reading'⟩ := right _ supplied.right
  refine ⟨_, lexed.joined (Link.separates _) (Link.filterMap_tokens _) lexed', ?_⟩
  intro rest
  rw [List.append_assoc, List.append_assoc]
  exact .and (reading _) (reading' rest)

theorem Prints.or (left : Prints vs .disjunction fs l) (right : Prints vs .conjunction gs r) :
    Prints vs .disjunction (fs ++ .sql Link.or.chars :: gs) (.or l r) := by
  intro k supplied
  rw [values_append] at supplied
  obtain ⟨ts, lexed, reading⟩ := left k supplied.left
  obtain ⟨us, lexed', reading'⟩ := right _ supplied.right
  refine ⟨_, lexed.joined (Link.separates _) (Link.filterMap_tokens _) lexed', ?_⟩
  intro rest
  rw [List.append_assoc, List.append_assoc]
  exact .or (reading _) (reading' rest)

/-- To the left of a link stands what this link continues, or an operand. -/
theorem Prints.left_and (h : Prints vs e.level fs e) :
    Prints vs .conjunction (Expr.enclosed .and true e.link? fs) e := by
  cases e with
  | and l r => exact h
  | or | between => exact h.enclosed.operand
  | _ => exact h.operand

theorem Prints.left_or (h : Prints vs e.level fs e) :
    Prints vs .disjunction (Expr.enclosed .or true e.link? fs) e := by
  cases e with
  | and | between => exact h.enclosed.loosened
  | _ => exact h.loosened

theorem Prints.right {outer : Link} (logical : outer.isLogical) (h : Prints vs e.level fs e) :
    Prints vs .operand (Expr.enclosed outer false e.link? fs) e := by
  have bare (inner : Link) :
      outer.isBare false inner = (inner = .eq || inner = .isIn || inner = .like) := by
    simp [Link.isBare, logical]
  cases e with
  | column | literal => exact h
  | and | or | between => simpa [Expr.enclosed, Expr.link?, bare] using h.enclosed
  | eq | isIn | like => simpa [Expr.enclosed, Expr.link?, Expr.level, bare] using h

/-- A column and what is asked of it. -/
theorem Prints.comparison {q : Option String} {name : String} {link : Link}
    (condition : ∀ k, Supplies vs k (values gs) → ∃ us, Lexes k gs us ∧
      ∀ rest, ConditionReading vs (.column q name) (link.tokens ++ us ++ rest) e rest) :
    Prints vs .operand ((Expr.column q name).fragments ++ .sql link.chars :: gs) e := by
  intro k supplied
  rw [values_append] at supplied
  obtain ⟨ts, lexed, column⟩ := Lexes.column k q name
  obtain ⟨us, lexed', reading⟩ := condition _ supplied.right
  refine ⟨_, lexed.joined link.separates link.filterMap_tokens lexed', ?_⟩
  intro rest
  rw [List.append_assoc, List.append_assoc, ← List.append_assoc link.tokens]
  exact .comparison (column _) (reading rest)

/-- The elements of a list and its closing parenthesis. -/
theorem exists_lexes_items {k : Nat} {v : Literal} {ls : List Literal}
    (supplied : Supplies vs k (values (.value v :: Expr.fragmentsTail (ls.map .literal)))) :
    ∃ ts, Lexes k (.value v :: Expr.fragmentsTail (ls.map .literal)) ts ∧
      ∀ rest, ItemsReading vs (ts ++ rest) (.literal v :: ls.map .literal) rest := by
  induction ls generalizing k v with
  | nil =>
    have bound := supplied.head
    refine ⟨_, (Lexes.value k v).closed, ?_⟩
    intro rest
    exact .last bound
  | cons w ls ih =>
    have bound := supplied.head
    rw [List.map_cons, Expr.fragmentsTail] at supplied ⊢
    obtain ⟨ts, lexed, items⟩ := ih supplied.tail
    refine ⟨_, (Lexes.value k v).joined separates_comma rfl lexed, ?_⟩
    intro rest
    exact .cons bound (items rest)

end Levels

namespace Expr

variable {vs : List Literal} {Named : Option String → String → Prop} {Value : Literal → Prop}
  {e : Expr}

theorem Comparison.prints {q : Option String} {name : String}
    (h : Comparison Value (column q name) e) : Prints vs .operand e.fragments e := by
  cases h with
  | eq value =>
    rw [fragments, fragments]
    apply Prints.comparison
    intro k supplied
    exact ⟨_, .value k _, fun rest => .eq supplied.head⟩
  | isIn value values =>
    rw [fragments, fragments, List.append_assoc]
    apply Prints.comparison
    intro k supplied
    obtain ⟨ts, lexed, items⟩ := exists_lexes_items supplied
    exact ⟨ts, lexed, fun rest => .isIn (items rest)⟩
  | @between low high lowValue highValue =>
    rw [fragments, fragments, fragments, List.append_assoc]
    apply Prints.comparison
    intro k supplied
    have lexed := (Lexes.value k low).joined Link.and.separates rfl (.value (k + 1) high)
    exact ⟨_, lexed, fun rest => .between supplied.head supplied.tail.head⟩
  | like pattern =>
    rw [fragments]
    apply Prints.comparison
    intro k supplied
    exact ⟨_, .value k _, fun rest => .like supplied.head⟩

theorem Comparison.level {q : Option String} {name : String}
    (h : Comparison Value (column q name) e) : e.level = .operand := by
  cases h <;> rfl

/-- A condition is read from its text, at the level of its outermost link. -/
theorem Condition.prints (h : e.Condition Named Value) : Prints vs e.level e.fragments e := by
  induction h with
  | comparison named compares =>
    rw [compares.level]
    exact compares.prints
  | and left right ihl ihr =>
    rw [fragments]
    exact ihl.left_and.and (ihr.right rfl)
  | or left right ihl ihr =>
    rw [fragments]
    exact ihl.left_or.or (ihr.right rfl).operand

/-- The markers in the text are numbered without gaps, one for each value. -/
theorem Condition.exists_tokens (h : e.Condition Named Value) :
    ∃ ts, tokens? e.bound.toList = some ts ∧
      ts.filterMap Token.marker? = List.range' 1 e.boundValues.length ∧
      Reading e.boundValues .disjunction ts e [] := by
  obtain ⟨ts, lexed, reading⟩ := h.prints.loosened 1 (supplies_self e.boundValues)
  refine ⟨ts, ?_, lexed.markers, ?_⟩
  · rw [bound, String.toList_ofList]
    exact lexed.lexes.tokens?
  · rw [← List.append_nil ts]
    exact reading []

theorem Condition.reads_iff (h : e.Condition Named Value) {f : Expr} :
    Reads e.boundValues e.bound f ↔ f = e := by
  obtain ⟨ts, lexed, -, reading⟩ := h.exists_tokens
  constructor
  · intro reads
    obtain ⟨ts', lexed', reading'⟩ := reads
    cases lexed.symm.trans lexed'
    exact reading'.unique reading
  · rintro rfl
    exact ⟨ts, lexed, reading⟩

end Expr

section Blanked

/-- Forgets which value stands in a place. -/
def Fragment.blanked : Fragment → Fragment
  | sql cs => sql cs
  | value _ => value (.int 0)

def Expr.blanked : Expr → Expr
  | literal _ => literal (.int 0)
  | e => e

theorem numbered_map_blanked (k : Nat) (fs : List Fragment) :
    numbered k (fs.map Fragment.blanked) = numbered k fs := by
  induction fs generalizing k with
  | nil => rfl
  | cons f fs ih =>
    cases f with
    | sql cs => exact congrArg (cs ++ ·) (ih k)
    | value l => exact congrArg ('$' :: Decimal.chars k ++ ·) (ih (k + 1))

namespace Expr

variable {outer : Link} {left : Bool} {inner : Option Link} {fs : List Fragment}

theorem link?_blanked (e : Expr) : e.blanked.link? = e.link? := by
  cases e <;> rfl

theorem map_blanked_fragments_blanked (e : Expr) :
    e.blanked.fragments.map Fragment.blanked = e.fragments.map Fragment.blanked := by
  cases e with
  | literal l => rw [blanked, fragments, fragments]; rfl
  | _ => rfl

theorem map_blanked_enclosed :
    (enclosed outer left inner fs).map Fragment.blanked =
      enclosed outer left inner (fs.map Fragment.blanked) := by
  unfold enclosed
  split
  · split
    · rfl
    · simp [Fragment.blanked]
  · rfl

theorem map_blanked_fragmentsTail (es : List Expr) :
    (fragmentsTail (es.map blanked)).map Fragment.blanked =
      (fragmentsTail es).map Fragment.blanked := by
  induction es with
  | nil => rfl
  | cons e es ih =>
    rw [List.map_cons, fragmentsTail, fragmentsTail, List.map_append, List.map_append, ih,
      List.map_cons, List.map_cons, map_blanked_fragments_blanked]

end Expr

end Blanked

end DataAccess.Sql
