import DataAccess.Decision.Constraint
import DataAccess.Explain

/-!
# Decisions

A verdict with its reason and, where it allows, the restrictions that come with it.
-/

namespace DataAccess

structure Decision where
  verdict : Verdict
  reason : String
  rowFilter : Option RowFilter
  columns : Option ColumnConstraint
deriving BEq

/-- A decision with what led to it. -/
structure Explained where
  decision : Decision
  allowIds : List String
  denyIds : List String
  ranges : List String
  /-- Whether some applicable policy names a resource above the requested one. -/
  inherited : Bool
  explain : Explain
deriving BEq

namespace Decision

def deny (reason : String) : Decision := ⟨.deny, reason, none, none⟩

def allow (reason : String) (rowFilter : Option RowFilter) (columns : Option ColumnConstraint) :
    Decision :=
  ⟨.allow, reason, rowFilter, columns⟩

def toDocument (d : Decision) : Document :=
  .table [("decision_type", d.verdict.toDocument), ("reason", .text d.reason),
    ("row_filter", .optional RowFilter.toDocument d.rowFilter),
    ("column_constraint", .optional ColumnConstraint.toDocument d.columns)]

end Decision

namespace Explained

def toDocument (x : Explained) : Document :=
  .table [("decision", x.decision.toDocument),
    ("allow_policy_ids", .list (x.allowIds.map .text)),
    ("deny_policy_ids", .list (x.denyIds.map .text)),
    ("applied_ranges", .list (x.ranges.map .text)), ("inherited", .bool x.inherited),
    ("explain", x.explain.toDocument)]

end Explained

end DataAccess
