import DataAccess.Proofs.Rule.Rendering
import DataAccess.Proofs.Sql.Condition

/-!
# Trees of literals

The literals that a tree compares its columns with. What such a tree renders to is a condition
(`condition_qualify`).
-/

namespace DataAccess

/-- The literal that a value is. -/
def Sql.Expr.literal? : Sql.Expr → Option Sql.Literal
  | literal l => some l
  | _ => none

theorem Sql.Expr.exists_literal {e : Sql.Expr} (h : e.isLiteral) : ∃ l, e = literal l := by
  cases e with
  | literal l => exact ⟨l, rfl⟩
  | _ => cases h

theorem Sql.Expr.exists_literals {es : List Sql.Expr} (h : ∀ e ∈ es, e.isLiteral) :
    ∃ ls : List Literal, es = ls.map literal := by
  induction es with
  | nil => exact ⟨[], rfl⟩
  | cons e es ih =>
    rw [List.forall_mem_cons] at h
    obtain ⟨l, rfl⟩ := exists_literal h.1
    obtain ⟨ls, rfl⟩ := ih h.2
    exact ⟨l :: ls, rfl⟩

namespace Node

variable {n : Node} {q : Column → Option String} {Named : Option String → String → Prop}
  {Value : Sql.Literal → Prop}

/-- The literals and patterns from left to right. -/
def literals : Node → List Sql.Literal
  | and l r => l.literals ++ r.literals
  | or l r => l.literals ++ r.literals
  | eq _ value => value.literal?.toList
  | isIn _ values => values.filterMap Sql.Expr.literal?
  | between _ low high => low.literal?.toList ++ high.literal?.toList
  | like _ pattern => [.text pattern]

/-- No list of values is empty. -/
def HasMembers : Node → Prop
  | and l r => l.HasMembers ∧ r.HasMembers
  | or l r => l.HasMembers ∧ r.HasMembers
  | isIn _ values => values ≠ []
  | _ => True

theorem filterMap_literal? (ls : List Sql.Literal) :
    (ls.map Sql.Expr.literal).filterMap Sql.Expr.literal? = ls := by
  rw [List.filterMap_map]
  exact List.filterMap_some

theorem condition_qualify (literals : n.OfLiterals) (members : n.HasMembers)
    (named : ∀ c ∈ n.columns, Named (q c) c.name) (values : ∀ l ∈ n.literals, Value l) :
    (n.qualify q).Condition Named Value := by
  induction n with
  | and l r ihl ihr =>
    rw [columns, List.forall_mem_append] at named
    rw [Node.literals, List.forall_mem_append] at values
    exact .and (ihl literals.1 members.1 named.1 values.1)
      (ihr literals.2 members.2 named.2 values.2)
  | or l r ihl ihr =>
    rw [columns, List.forall_mem_append] at named
    rw [Node.literals, List.forall_mem_append] at values
    exact .or (ihl literals.1 members.1 named.1 values.1)
      (ihr literals.2 members.2 named.2 values.2)
  | eq c value =>
    obtain ⟨l, rfl⟩ := Sql.Expr.exists_literal literals
    exact .comparison (named c (List.mem_singleton_self c))
      (.eq (values l (List.mem_singleton_self l)))
  | isIn c es =>
    obtain ⟨ls, rfl⟩ := Sql.Expr.exists_literals literals
    rw [Node.literals, filterMap_literal?] at values
    cases ls with
    | nil => exact absurd rfl members
    | cons l ls =>
      rw [List.forall_mem_cons] at values
      exact .comparison (named c (List.mem_singleton_self c)) (.isIn values.1 values.2)
  | between c low high =>
    obtain ⟨l, rfl⟩ := Sql.Expr.exists_literal literals.1
    obtain ⟨h, rfl⟩ := Sql.Expr.exists_literal literals.2
    rw [Node.literals, List.forall_mem_append] at values
    exact .comparison (named c (List.mem_singleton_self c))
      (.between (values.1 l (List.mem_singleton_self l)) (values.2 h (List.mem_singleton_self h)))
  | like c pattern => exact .comparison (named c (List.mem_singleton_self c)) (.like pattern)

end Node

end DataAccess
