import DataAccess.Rule.Column

/-!
# Predicate trees

A compiled condition whose columns are not yet bound to a table. It is rendered once for each
occurrence of a table in a query.
-/

namespace DataAccess

inductive Node where
  | and (l r : Node)
  | or (l r : Node)
  | eq (column : Column) (value : Sql.Expr)
  | isIn (column : Column) (values : List Sql.Expr)
  | between (column : Column) (low high : Sql.Expr)
  | like (column : Column) (pattern : String)

namespace Node

/-- Fails at the leftmost column that is pinned to another table. -/
def render (t : Table) : Node → Except RenderError Sql.Expr
  | and l r => do return .and (← l.render t) (← r.render t)
  | or l r => do return .or (← l.render t) (← r.render t)
  | eq c value => do return .eq (← c.render t) value
  | isIn c values => do return .isIn (← c.render t) values
  | between c low high => do return .between (← c.render t) low high
  | like c pattern => do return .like (← c.render t) pattern

def leafCount : Node → Nat
  | and l r => l.leafCount + r.leafCount
  | or l r => l.leafCount + r.leafCount
  | _ => 1

/-- The columns from left to right. -/
def columns : Node → List Column
  | and l r => l.columns ++ r.columns
  | or l r => l.columns ++ r.columns
  | eq c _ => [c]
  | isIn c _ => [c]
  | between c _ _ => [c]
  | like c _ => [c]

/-- Joins nodes from the left. -/
def joinAll (join : Node → Node → Node) : List Node → Option Node
  | [] => none
  | n :: ns => some (ns.foldl join n)

end Node

end DataAccess
