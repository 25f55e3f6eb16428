import DataAccess.Proofs.Rule.Conditions
import DataAccess.Proofs.Sql.Binding

/-!
# Rendered trees with bound values

The SQL with bound values that a tree renders to means what the tree means, and no value is in its
text (`render_binds`).
-/

namespace DataAccess

namespace Node

variable {n m : Node} {t : Table} {e : Sql.Expr} {q : Column → Option String}

/-- A tree with the same value in all places. -/
def blanked : Node → Node
  | and l r => and l.blanked r.blanked
  | or l r => or l.blanked r.blanked
  | eq c value => eq c value.blanked
  | isIn c values => isIn c (values.map Sql.Expr.blanked)
  | between c low high => between c low.blanked high.blanked
  | like c _ => like c ""

theorem columns_blanked (n : Node) : n.blanked.columns = n.columns := by
  induction n with
  | and l r ihl ihr | or l r ihl ihr => rw [blanked, columns, ihl, ihr, columns]
  | _ => rfl

theorem link?_qualify_blanked (n : Node) : (n.blanked.qualify q).link? = (n.qualify q).link? := by
  cases n <;> rfl

theorem map_blanked_fragments (n : Node) :
    (n.blanked.qualify q).fragments.map Sql.Fragment.blanked =
      (n.qualify q).fragments.map Sql.Fragment.blanked := by
  induction n with
  | and l r ihl ihr | or l r ihl ihr =>
    simp only [blanked, qualify, Sql.Expr.fragments, List.map_append, List.map_cons,
      Sql.Expr.map_blanked_enclosed, link?_qualify_blanked, ihl, ihr]
  | eq c value =>
    simp only [blanked, qualify, Sql.Expr.fragments, List.map_append, List.map_cons,
      Sql.Expr.map_blanked_enclosed, Sql.Expr.link?_blanked,
      Sql.Expr.map_blanked_fragments_blanked]
  | isIn c values =>
    cases values with
    | nil => rfl
    | cons v vs =>
      simp only [blanked, qualify, List.map_cons, Sql.Expr.fragments, List.map_append,
        Sql.Expr.map_blanked_fragments_blanked, Sql.Expr.map_blanked_fragmentsTail]
  | between c low high =>
    simp only [blanked, qualify, Sql.Expr.fragments, List.map_append, List.map_cons,
      Sql.Expr.map_blanked_enclosed, Sql.Expr.link?_blanked,
      Sql.Expr.map_blanked_fragments_blanked]
  | like c pattern =>
    simp only [blanked, qualify, Sql.Expr.fragments, List.map_append, List.map_cons, List.map_nil,
      Sql.Fragment.blanked]

/-- Trees that differ in their values only have the same text. -/
theorem bound_qualify_of_blanked (same : m.blanked = n.blanked) :
    (m.qualify q).bound = (n.qualify q).bound := by
  rw [Sql.Expr.bound, Sql.Expr.bound, ← Sql.numbered_map_blanked, ← map_blanked_fragments, same,
    map_blanked_fragments, Sql.numbered_map_blanked]

theorem boundValues_qualify (literals : n.OfLiterals) (members : n.HasMembers) :
    (n.qualify q).boundValues = n.literals := by
  unfold Sql.Expr.boundValues
  induction n with
  | and l r ihl ihr | or l r ihl ihr =>
    rw [qualify, Sql.Expr.fragments, Sql.values_append, Sql.values, Sql.Expr.values_enclosed,
      Sql.Expr.values_enclosed, ihl literals.1 members.1, ihr literals.2 members.2, Node.literals]
  | eq c value =>
    obtain ⟨l, rfl⟩ := Sql.Expr.exists_literal literals
    rw [qualify, Sql.Expr.fragments, Sql.values_append, Sql.Expr.values_enclosed,
      Sql.Expr.values_column]
    rfl
  | isIn c es =>
    obtain ⟨ls, rfl⟩ := Sql.Expr.exists_literals literals
    cases ls with
    | nil => exact absurd rfl members
    | cons l ls =>
      rw [qualify, List.map_cons, Sql.Expr.fragments, Sql.values_append, Sql.values_append,
        Sql.Expr.values_enclosed, Sql.Expr.values_column, Sql.Expr.values_fragmentsTail,
        Node.literals, ← List.map_cons, filterMap_literal?]
      rfl
  | between c low high =>
    obtain ⟨l, rfl⟩ := Sql.Expr.exists_literal literals.1
    obtain ⟨h, rfl⟩ := Sql.Expr.exists_literal literals.2
    rw [qualify, Sql.Expr.fragments, Sql.values_append, Sql.values_append,
      Sql.Expr.values_enclosed, Sql.Expr.values_column]
    rfl
  | like c pattern =>
    rw [qualify, Sql.Expr.fragments, Sql.values_append, Sql.Expr.values_enclosed,
      Sql.Expr.values_column]
    rfl

/-- What the text of a rendered tree and the values bound to it say. -/
structure Binds (n : Node) (t : Table) (e : Sql.Expr) : Prop where
  markers : ∃ ts, Sql.tokens? e.bound.toList = some ts ∧
    ts.filterMap Sql.Token.marker? = List.range' 1 n.literals.length
  values : e.boundValues = n.literals
  hidesValues : ∀ m : Node, m.blanked = n.blanked → ∃ f, m.render t = .ok f ∧ f.bound = e.bound
  reads : ∀ f, Sql.Reads e.boundValues e.bound f ↔ f = e

/-- The markers of a rendered tree are numbered from left to right, as the literals of the tree that
are bound to them; the text is the same whatever these are; and reading it with the precedence of
SQL gives back the tree. -/
theorem render_binds (rendered : n.render t = .ok e) (literals : n.OfLiterals)
    (members : n.HasMembers) : n.Binds t e := by
  obtain ⟨fits, rfl⟩ := render_eq_ok_iff.mp rendered
  have condition : (n.qualify (·.qualifier t)).Condition (fun _ _ => True) (fun _ => True) :=
    condition_qualify literals members (fun _ _ => trivial) fun _ _ => trivial
  have values := boundValues_qualify (q := (·.qualifier t)) literals members
  constructor
  case markers =>
    obtain ⟨ts, lexed, markers, -⟩ := condition.exists_tokens
    rw [values] at markers
    exact ⟨ts, lexed, markers⟩
  case values => exact values
  case hidesValues =>
    intro m same
    refine ⟨m.qualify (·.qualifier t), ?_, bound_qualify_of_blanked same⟩
    apply render_of_fits
    rw [← columns_blanked, same, columns_blanked]
    exact fits
  case reads =>
    intro f
    exact condition.reads_iff

/-- A disjunction under `AND` keeps its parentheses, and a quote in a name is doubled. -/
theorem render_binds_quoted_name :
    ∃ e, (and
        (or (eq ⟨none, "a\"b"⟩ (.literal (.text "' OR 1 = 1")))
          (between ⟨none, "n"⟩ (.literal (.int 1)) (.literal (.int 2))))
        (isIn ⟨none, "k"⟩ [.literal (.int 3), .literal (.int 4)])).render ⟨"t", none⟩ = .ok e ∧
      e.bound = "(\"a\"\"b\" = $1 OR (\"n\" BETWEEN $2 AND $3)) AND \"k\" IN ($4, $5)" ∧
      Binds (and
        (or (eq ⟨none, "a\"b"⟩ (.literal (.text "' OR 1 = 1")))
          (between ⟨none, "n"⟩ (.literal (.int 1)) (.literal (.int 2))))
        (isIn ⟨none, "k"⟩ [.literal (.int 3), .literal (.int 4)])) ⟨"t", none⟩ e := by
  refine ⟨_, rfl, rfl, ?_⟩
  apply render_binds rfl
  · simp [OfLiterals, Sql.Expr.isLiteral]
  · simp [HasMembers]

end Node

end DataAccess
