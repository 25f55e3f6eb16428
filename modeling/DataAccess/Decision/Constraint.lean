import DataAccess.Decision.Context

/-!
# Constraints

What allowing policies restrict: rows to the alternatives of their ranges, columns by the unions
of what they list. A column that is both listed and hidden is hidden.
-/

namespace DataAccess

structure ColumnConstraint where
  allow : NameSet
  deny : NameSet
deriving DecidableEq

namespace ColumnConstraint

def isEmpty (k : ColumnConstraint) : Bool := k.allow.isEmpty && k.deny.isEmpty

/-- Without listed columns every column is exposed that is not hidden. -/
def allows (k : ColumnConstraint) (column : String) : Bool :=
  column ∉ k.deny && (k.allow.isEmpty || column ∈ k.allow)

def effective (k : ColumnConstraint) : NameSet := k.allow.diff k.deny

def conflicts (k : ColumnConstraint) : NameSet := k.allow.inter k.deny

def ofDocument? : Decoder ColumnConstraint := fun δ d => do
  let fs ← Document.fields? ["allow_columns", "deny_columns"] δ d
  return { allow := ← required δ fs "allow_columns" Document.nameSet?
           deny := ← required δ fs "deny_columns" Document.nameSet? }

def toDocument (k : ColumnConstraint) : Document :=
  .table [("allow_columns", .names k.allow), ("deny_columns", .names k.deny)]

end ColumnConstraint

/-- A filter with the texts that went into it. -/
structure ResolvedFilter where
  filter : RowFilter
  ranges : List String

/-- The range of a policy that restricts the rows it allows. -/
def Policy.rowText? (p : Policy) : Option String :=
  if p.isAllow && p.resolvedScope = .row then p.rangeText? else none

/-- Reads texts as the alternatives of one range. -/
def RowRange.parseAll (texts : List String) : Except RangeError (Option RowRange) := do
  match ← texts.mapM parse with
  | [] => return none
  | r :: rs => return some (rs.foldl or r)

def rowFilter (c : RangeContext) (ps : List Policy) :
    Except RangeError (Option ResolvedFilter) := do
  let texts := ps.filterMap Policy.rowText?
  match ← RowRange.parseAll texts with
  | none => return none
  | some r => return some ⟨← r.build c, texts⟩

def Policy.restrictsColumns (p : Policy) : Bool := p.isAllow && p.resolvedScope = .column

def columnConstraint? (ps : List Policy) : Option ColumnConstraint :=
  match ps.filter Policy.restrictsColumns with
  | [] => none
  | q :: qs => some
    { allow := qs.foldl (fun s p => s.union p.allowColumns) q.allowColumns
      deny := qs.foldl (fun s p => s.union p.denyColumns) q.denyColumns }

end DataAccess
