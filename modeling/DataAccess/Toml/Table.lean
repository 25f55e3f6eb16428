import DataAccess.Document.Basic

/-!
# TOML tables

Tables while they are put together from keys and headers. A table comes from a header, from a
dotted key, or is implied by a header below it; it depends on that what may be added to it later.
Nothing is ever defined twice.
-/

namespace DataAccess.Toml

inductive Origin where
  | header
  | implied
  | dotted
deriving DecidableEq

inductive Item where
  /-- A value, also a list or table within a line. It is complete. -/
  | value (d : Document)
  | table (origin : Origin) (fields : List (String × Item))
  /-- A list of tables under one header, of which the latest can still grow. -/
  | tables (earlier : List Document) (latest : List (String × Item))

abbrev Fields := List (String × Item)

namespace Fields

/-- Changes what stands under a key. A new key comes last. -/
def alter (k : String) (f : Option Item → Option Item) : Fields → Option Fields
  | [] => (f none).map fun i => [(k, i)]
  | (j, i) :: fs =>
    if j = k then (f (some i)).map fun i => (k, i) :: fs else (alter k f fs).map ((j, i) :: ·)

/-- Adds a value under a dotted key. The key may pass through tables of other dotted keys and
through the latest of a list of tables, but has to end in a table of dotted keys. -/
def insert (d : Document) : List String → Fields → Option Fields
  | [], _ => none
  | [k], fs => fs.alter k fun
    | none => some (.value d)
    | some _ => none
  | k :: ks, fs => fs.alter k fun
    | none => (insert d ks []).map (.table .dotted)
    | some (.table origin gs) =>
      if origin = .header ∨ (ks.length = 1 ∧ origin ≠ .dotted) then none
      else (insert d ks gs).map (.table origin)
    | some (.tables earlier latest) =>
      if ks.length = 1 then none else (insert d ks latest).map (.tables earlier)
    | some (.value _) => none

/-- Changes the table at the end of the upper part of a header. -/
def under (f : Fields → Option Fields) : List String → Fields → Option Fields
  | [], fs => f fs
  | k :: ks, fs => fs.alter k fun
    | none => (under f ks []).map (.table .implied)
    | some (.table origin gs) => (under f ks gs).map (.table origin)
    | some (.tables earlier latest) => (under f ks latest).map (.tables earlier)
    | some (.value _) => none

/-- Defines a table by a header. It may have been implied before, and then moves to the end. -/
def define (k : String) (body : Fields → Option Fields) (fs : Fields) : Option Fields :=
  match fs.lookup k with
  | none => (body []).map fun gs => fs ++ [(k, .table .header gs)]
  | some (.table .implied gs) =>
    (body gs).map fun gs => fs.filter (·.1 ≠ k) ++ [(k, .table .header gs)]
  | some _ => none

mutual

def document : Item → Document
  | .value d => d
  | .table _ fs => .table (documents fs)
  | .tables earlier latest => .list (earlier ++ [.table (documents latest)])

def documents : List (String × Item) → List (String × Document)
  | [] => []
  | (k, i) :: fs => (k, document i) :: documents fs

end

/-- Adds a table to the list of tables under a header. -/
def push (k : String) (body : Fields → Option Fields) (fs : Fields) : Option Fields :=
  fs.alter k fun
    | none => (body []).map (.tables [])
    | some (.tables earlier latest) =>
      (body []).map (.tables (earlier ++ [.table (documents latest)]))
    | some _ => none

end Fields

end DataAccess.Toml
