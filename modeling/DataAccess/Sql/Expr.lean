import DataAccess.Decimal.FloatText

/-!
# SQL expressions

What a predicate becomes for one table. Values occur only as literals.
-/

namespace DataAccess.Sql

inductive Literal where
  | text (s : String)
  /-- Truth values are written as 1 and 0. -/
  | int (n : Int64)
  | float (x : Float)
deriving DecidableEq

inductive Expr where
  | column (qualifier : Option String) (name : String)
  | literal (l : Literal)
  | and (l r : Expr)
  | or (l r : Expr)
  | eq (l r : Expr)
  | isIn (e : Expr) (items : List Expr)
  | between (e low high : Expr)
  | like (e : Expr) (pattern : String)
deriving Inhabited

namespace Expr

def isLiteral : Expr → Bool
  | literal _ => true
  | _ => false

end Expr

end DataAccess.Sql
