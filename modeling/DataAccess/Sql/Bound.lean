import DataAccess.Sql.Text

/-!
# SQL with bound values

The text of an expression for PostgreSQL, where every literal is a numbered marker. An expression
is first laid out as fragments of text and literals; the numbering follows the order of the
literals.
-/

namespace DataAccess.Sql

/-- What joins the operands of a composite expression. -/
inductive Link where
  | and
  | or
  | eq
  | isIn
  | between
  | like
deriving DecidableEq

inductive Fragment where
  | sql (cs : List Char)
  | value (l : Literal)
deriving DecidableEq

/-- A name between double quotes. -/
def identifier (name : String) : List Char := '"' :: doubled '"' name.toList ++ ['"']

namespace Link

/-- The text between the operands. That of a membership also opens the list. -/
def chars : Link → List Char
  | and => " AND ".toList
  | or => " OR ".toList
  | eq => " = ".toList
  | isIn => " IN (".toList
  | between => " BETWEEN ".toList
  | like => " LIKE ".toList

def isLogical (k : Link) : Bool := k = and || k = or

/-- Whether an operand goes without parentheses: a comparison under `AND` or `OR`, or the left
operand of a chain of one of these. -/
def isBare (outer : Link) (left : Bool) (inner : Link) : Bool :=
  outer.isLogical && (inner = eq || inner = isIn || inner = like || (left && inner = outer))

end Link

namespace Expr

def link? : Expr → Option Link
  | column _ _ => none
  | literal _ => none
  | and _ _ => some .and
  | or _ _ => some .or
  | eq _ _ => some .eq
  | isIn _ _ => some .isIn
  | between _ _ _ => some .between
  | like _ _ => some .like

/-- An operand with the parentheses that it needs. -/
def enclosed (outer : Link) (left : Bool) (inner : Option Link) (fs : List Fragment) :
    List Fragment :=
  match inner with
  | some k => if outer.isBare left k then fs else .sql ['('] :: fs ++ [.sql [')']]
  | none => fs

mutual

/-- Membership in an empty list becomes a comparison that is false, without its left operand. -/
def fragments : Expr → List Fragment
  | column none name => [.sql (identifier name)]
  | column (some qualifier) name => [.sql (identifier qualifier ++ '.' :: identifier name)]
  | literal l => [.value l]
  | and l r =>
    enclosed .and true l.link? (fragments l) ++ .sql Link.and.chars ::
      enclosed .and false r.link? (fragments r)
  | or l r =>
    enclosed .or true l.link? (fragments l) ++ .sql Link.or.chars ::
      enclosed .or false r.link? (fragments r)
  | eq l r =>
    enclosed .eq true l.link? (fragments l) ++ .sql Link.eq.chars ::
      enclosed .eq false r.link? (fragments r)
  | isIn _ [] => [.value (.int 1), .sql Link.eq.chars, .value (.int 2)]
  | isIn e (i :: is) =>
    enclosed .isIn true e.link? (fragments e) ++ .sql Link.isIn.chars :: fragments i ++
      fragmentsTail is
  | between e low high =>
    enclosed .between true e.link? (fragments e) ++ .sql Link.between.chars ::
      enclosed .and true low.link? (fragments low) ++ .sql Link.and.chars ::
      enclosed .and false high.link? (fragments high)
  | like e pattern =>
    enclosed .like true e.link? (fragments e) ++ [.sql Link.like.chars, .value (.text pattern)]

/-- The elements of a list after the first one, and the closing parenthesis. -/
def fragmentsTail : List Expr → List Fragment
  | [] => [.sql [')']]
  | e :: es => .sql [',', ' '] :: fragments e ++ fragmentsTail es

end

end Expr

/-- The text of fragments, with markers numbered from a given one on. -/
def numbered (next : Nat) : List Fragment → List Char
  | [] => []
  | .sql cs :: fs => cs ++ numbered next fs
  | .value _ :: fs => '$' :: Decimal.chars next ++ numbered (next + 1) fs

/-- The literals of fragments, in order. -/
def values : List Fragment → List Literal
  | [] => []
  | .sql _ :: fs => values fs
  | .value l :: fs => l :: values fs

namespace Expr

def bound (e : Expr) : String := String.ofList (numbered 1 e.fragments)

def boundValues (e : Expr) : List Literal := values e.fragments

end Expr

end DataAccess.Sql
