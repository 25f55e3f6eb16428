import DataAccess.Sql.Expr

/-!
# Conditions

The expressions that compare columns with literals, joined by `AND` and `OR`.
-/

namespace DataAccess.Sql.Expr

/-- Compares a column with literals of a given kind. No list of values is empty. -/
inductive Comparison (Value : Literal → Prop) (c : Expr) : Expr → Prop
  | eq {l : Literal} (value : Value l) : Comparison Value c (eq c (literal l))
  | isIn {l : Literal} {ls : List Literal} (value : Value l) (values : ∀ v ∈ ls, Value v) :
      Comparison Value c (isIn c (literal l :: ls.map literal))
  | between {low high : Literal} (lowValue : Value low) (highValue : Value high) :
      Comparison Value c (between c (literal low) (literal high))
  | like (pattern : String) : Comparison Value c (like c pattern)

/-- All columns and literals are of given kinds. -/
inductive Condition (Named : Option String → String → Prop) (Value : Literal → Prop) : Expr → Prop
  | comparison {q : Option String} {name : String} {e : Expr} (named : Named q name)
      (compares : Comparison Value (column q name) e) : Condition Named Value e
  | and {l r : Expr} (left : Condition Named Value l) (right : Condition Named Value r) :
      Condition Named Value (and l r)
  | or {l r : Expr} (left : Condition Named Value l) (right : Condition Named Value r) :
      Condition Named Value (or l r)

end DataAccess.Sql.Expr
