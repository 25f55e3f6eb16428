import DataAccess.Range.Confinement
import DataAccess.Decimal.Reader
import DataAccess.Document.Schema

/-!
# Row ranges

A range is a condition on rows, given as a template or as alternatives. Texts are read with their
blanks cut off and are accepted when they are templates that stay in their group.
-/

namespace DataAccess

inductive RowRange where
  | text (s : String)
  | or (l r : RowRange)
deriving DecidableEq

inductive RangeError where
  | blank
  | template (fault : Template.Fault)
  | escape (e : Escape)
  | unknownPlaceholder (name : String)
deriving DecidableEq

def RangeError.message : RangeError → String
  | blank => "Failed to parse range expression: empty range expression"
  | template fault => "Failed to parse range expression: " ++ fault.message
  | escape e => "Failed to parse range expression: range expression contains " ++ e.name
  | unknownPlaceholder name => "Unknown range placeholder: " ++ name

namespace RowRange

def parse (s : String) : Except RangeError RowRange :=
  let cs := Text.strip s.toList
  if cs = [] then .error .blank
  else match Template.pieces 0 cs, escape? cs with
    | .error fault, _ => .error (.template fault)
    | .ok _, some e => .error (.escape e)
    | .ok _, none => .ok (.text (String.ofList cs))

/-- The texts of a range from left to right. -/
def leaves : RowRange → List String
  | text s => [s]
  | or l r => l.leaves ++ r.leaves

/-- The range as it is shown. -/
def display : RowRange → String
  | text s => s
  | or l r => "(" ++ l.display ++ ") OR (" ++ r.display ++ ")"

/-- The two parts of a pair. TOML has it as a list or as a table whose keys are numbers, first 0 and
then 1. -/
def pair? : Dialect → Document → Option (Document × Document)
  | _, .list [l, r] => some (l, r)
  | .toml, .table [(j, l), (k, r)] =>
    if Decimal.natural? j = some 0 ∧ Decimal.natural? k = some 1 then some (l, r) else none
  | _, _ => none

theorem sizeOf_pair? {δ : Dialect} {d l r : Document} (h : pair? δ d = some (l, r)) :
    sizeOf l < sizeOf d ∧ sizeOf r < sizeOf d := by
  unfold pair? at h
  split at h
  · cases h
    simp only [Document.list.sizeOf_spec, List.cons.sizeOf_spec, List.nil.sizeOf_spec]
    omega
  · split at h
    · cases h
      simp only [Document.table.sizeOf_spec, List.cons.sizeOf_spec, List.nil.sizeOf_spec,
        Prod.mk.sizeOf_spec]
      omega
    · cases h
  · cases h

def ofDocument? (δ : Dialect) (d : Document) : Option RowRange :=
  match d with
  | .table [("Text", d)] => (Document.text? δ d).map text
  | .table [("Or", d)] =>
    match _h : pair? δ d with
    | some (l, r) => do return or (← ofDocument? δ l) (← ofDocument? δ r)
    | none => none
  | _ => none
termination_by sizeOf d
decreasing_by
  all_goals
    have := sizeOf_pair? _h
    simp only [Document.table.sizeOf_spec, List.cons.sizeOf_spec, List.nil.sizeOf_spec,
      Prod.mk.sizeOf_spec]
    omega

def toDocument : RowRange → Document
  | text s => .table [("Text", .text s)]
  | or l r => .table [("Or", .list [l.toDocument, r.toDocument])]

end RowRange

end DataAccess
