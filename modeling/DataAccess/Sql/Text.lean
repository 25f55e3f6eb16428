import DataAccess.Sql.Expr

/-!
# Readable SQL

The text of an expression for audits, with its literals in place. A quote inside a string is
written twice.
-/

namespace DataAccess.Sql

/-- Writes every occurrence of a mark twice. -/
def doubled (mark : Char) : List Char → List Char
  | [] => []
  | c :: cs => if c = mark then mark :: mark :: doubled mark cs else c :: doubled mark cs

def quoted (s : String) : List Char := '\'' :: doubled '\'' s.toList ++ ['\'']

def Literal.chars : Literal → List Char
  | text s => quoted s
  | int n => (toString n.toInt).toList
  | float x => (Decimal.FloatText.display.write x).toList

namespace Expr

mutual

def chars : Expr → List Char
  | column none name => name.toList
  | column (some qualifier) name => qualifier.toList ++ '.' :: name.toList
  | literal l => l.chars
  | and l r => '(' :: chars l ++ " AND ".toList ++ chars r ++ [')']
  | or l r => '(' :: chars l ++ " OR ".toList ++ chars r ++ [')']
  | eq l r => chars l ++ " = ".toList ++ chars r
  | isIn e items => chars e ++ " IN (".toList ++ charsList items ++ [')']
  | between e low high =>
    chars e ++ " BETWEEN ".toList ++ chars low ++ " AND ".toList ++ chars high
  | like e pattern => chars e ++ " LIKE ".toList ++ quoted pattern

def charsList : List Expr → List Char
  | [] => []
  | [e] => chars e
  | e :: es => chars e ++ ", ".toList ++ charsList es

end

def text (e : Expr) : String := String.ofList e.chars

end Expr

end DataAccess.Sql
