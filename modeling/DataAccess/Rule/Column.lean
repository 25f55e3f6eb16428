import DataAccess.Document.Schema
import DataAccess.Sql.Expr
import DataAccess.Text.Blank
import DataAccess.Text.Case

/-!
# Columns and tables

A column may be pinned to a table; it then renders against occurrences of that table only. Table
names are compared after trimming and in lower case.
-/

namespace DataAccess

structure Column where
  table : Option String
  name : String
deriving DecidableEq

/-- One occurrence of a table in a query. -/
structure Table where
  name : String
  aliasName : Option String
deriving DecidableEq

inductive RenderError where
  | crossTable (column pinned current : String)
deriving DecidableEq

def RenderError.message : RenderError → String
  | crossTable column pinned current =>
    "column '" ++ column ++ "' belongs to table '" ++ pinned ++ "' but is rendered against '" ++
      current ++ "'"

def normalizeTableName (name : String) : String := Text.toLower (Text.trim name)

namespace Table

/-- The alias after trimming, unless it is blank. -/
def alias? (t : Table) : Option String := (t.aliasName.map Text.trim).filter (· ≠ "")

def ofDocument? : Decoder Table := fun δ d => do
  let fs ← Document.fields? ["name", "alias"] δ d
  return { name := ← required δ fs "name" Document.text?
           aliasName := ← nullable δ fs "alias" Document.text? }

def toDocument (t : Table) : Document :=
  .table [("name", .text t.name), ("alias", .optional .text t.aliasName)]

end Table

namespace Column

/-- The table that the column is pinned to, unless its name is blank. -/
def pin? (c : Column) : Option String := c.table.filter (!Text.isBlankText ·)

def text (c : Column) : String :=
  match c.pin? with
  | some table => table ++ "." ++ c.name
  | none => c.name

/-- The column in an occurrence of a table. A pinned column is always qualified, by the alias or
else by the table's name; another one only by an alias. -/
def render (c : Column) (t : Table) : Except RenderError Sql.Expr :=
  match c.pin? with
  | none => .ok (.column t.alias? c.name)
  | some pinned =>
    if normalizeTableName pinned = normalizeTableName t.name then
      .ok (.column (some (t.alias?.getD (Text.trim t.name))) c.name)
    else .error (.crossTable c.name pinned t.name)

def ofDocument? : Decoder Column := fun δ d => do
  let fs ← Document.fields? ["table", "column"] δ d
  return { table := ← nullable δ fs "table" Document.text?
           name := ← required δ fs "column" Document.text? }

def toDocument (c : Column) : Document :=
  .table [("table", .optional .text c.table), ("column", .text c.name)]

end Column

end DataAccess
