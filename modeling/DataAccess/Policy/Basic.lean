import DataAccess.Calendar.Reader
import DataAccess.Policy.Choice
import DataAccess.Policy.Reach

/-!
# Policies

A policy allows or denies an action on a resource and may restrict rows or columns. Storage may
leave most of it open; matching says what an absent part means.
-/

namespace DataAccess

structure Policy where
  id : String
  tenant : Option String := none
  action : Option String := none
  resourceType : Option String := none
  resource : Option String := none
  reach : Option Reach := none
  effect : Option Effect := none
  neverExpires : Bool := false
  /-- The last time at which the policy is in force. -/
  expiry : Option Instant := none
  /-- Whether the policy holds for resources under its own. -/
  inherits : Bool := false
  scope : Option Scope := none
  rowRange : Option String := none
  allowColumns : NameSet := ∅
  denyColumns : NameSet := ∅
  priority : Int32 := 0
deriving DecidableEq

def Instant.ofDocument? : Decoder Instant := fun δ d =>
  (Document.text? δ d).bind fun s => Instant.lenient? s.toList

def Instant.toDocument (t : Instant) : Document := .text t.text

namespace Policy

def create (id action resource : String) (effect : Effect) : Policy :=
  { id := id, action := some action, resource := some resource, effect := some effect }

/-- Sets an expiry, which then counts. -/
def expiring (p : Policy) (t : Instant) : Policy :=
  { p with expiry := some t, neverExpires := false }

/-- The text of the row range without the blanks around it, unless it is blank. -/
def rangeText? (p : Policy) : Option String := (p.rowRange.map Text.trim).filter (· ≠ "")

/-- The scope, inferred when it is absent: a row range means rows, columns mean columns. -/
def resolvedScope (p : Policy) : Scope :=
  match p.scope with
  | some s => s
  | none =>
    if p.rangeText?.isSome then .row
    else if p.allowColumns.isEmpty && p.denyColumns.isEmpty then .resource
    else .column

def isAllow (p : Policy) : Bool := p.effect = some .allow

def fieldNames : List String :=
  ["id", "tenant_code", "action_code", "resource_type_code", "resource_code", "resource_range",
    "effect", "never_expire", "expire_time", "inherit_flag", "scope", "range_dsl",
    "allow_columns", "deny_columns", "priority"]

def ofDocument? : Decoder Policy := fun δ d => do
  let fs ← Document.fields? fieldNames δ d
  return { id := ← required δ fs "id" Document.text?
           tenant := ← nullable δ fs "tenant_code" Document.text?
           action := ← nullable δ fs "action_code" Document.text?
           resourceType := ← nullable δ fs "resource_type_code" Document.text?
           resource := ← nullable δ fs "resource_code" Document.text?
           reach := ← nullable δ fs "resource_range" Reach.ofDocument?
           effect := ← nullable δ fs "effect" Effect.ofDocument?
           neverExpires := ← defaulted δ fs "never_expire" false Document.bool?
           expiry := ← nullable δ fs "expire_time" Instant.ofDocument?
           inherits := ← defaulted δ fs "inherit_flag" false Document.bool?
           scope := ← nullable δ fs "scope" Scope.ofDocument?
           rowRange := ← nullable δ fs "range_dsl" Document.text?
           allowColumns := ← defaulted δ fs "allow_columns" ∅ Document.nameSet?
           denyColumns := ← defaulted δ fs "deny_columns" ∅ Document.nameSet?
           priority := ← defaulted δ fs "priority" 0 Document.int32? }

def toDocument (p : Policy) : Document :=
  .table [("id", .text p.id), ("tenant_code", .optional .text p.tenant),
    ("action_code", .optional .text p.action),
    ("resource_type_code", .optional .text p.resourceType),
    ("resource_code", .optional .text p.resource),
    ("resource_range", .optional Reach.toDocument p.reach),
    ("effect", .optional Effect.toDocument p.effect), ("never_expire", .bool p.neverExpires),
    ("expire_time", .optional Instant.toDocument p.expiry), ("inherit_flag", .bool p.inherits),
    ("scope", .optional Scope.toDocument p.scope), ("range_dsl", .optional .text p.rowRange),
    ("allow_columns", .names p.allowColumns), ("deny_columns", .names p.denyColumns),
    ("priority", .int p.priority.toInt)]

end Policy

end DataAccess
