import DataAccess.Rule.Node
import DataAccess.Value.Document

/-!
# Rules

A rule set guards one resource. Its rules are alternatives; the predicates of one rule are joined
by its mode. Operands may be placeholders of attributes.
-/

namespace DataAccess

inductive Operator where
  | eq
  | isIn
  | between
  | like
deriving DecidableEq

namespace Operator

def name : Operator → String
  | eq => "EQ"
  | isIn => "IN"
  | between => "BETWEEN"
  | like => "LIKE"

def ofName? : String → Option Operator
  | "EQ" => some eq
  | "IN" => some isIn
  | "BETWEEN" => some between
  | "LIKE" => some like
  | _ => none

/-- The number of values that the operator takes, in words. -/
def arity : Operator → String
  | eq => "exactly 1"
  | isIn => "at least 1"
  | between => "exactly 2"
  | like => "exactly 1"

def ofDocument? : Decoder Operator := Document.name? ofName?

def toDocument (o : Operator) : Document := .text o.name

end Operator

inductive CombineMode where
  | and
  | or
deriving DecidableEq

namespace CombineMode

def name : CombineMode → String
  | and => "AND"
  | or => "OR"

def ofName? : String → Option CombineMode
  | "AND" => some and
  | "OR" => some or
  | _ => none

def combine : CombineMode → Node → Node → Node
  | and => .and
  | or => .or

def ofDocument? : Decoder CombineMode := Document.name? ofName?

def toDocument (m : CombineMode) : Document := .text m.name

end CombineMode

structure Predicate where
  field : String
  operator : Operator
  values : List Value
deriving BEq

structure Rule where
  priority : Int32
  combine : Option CombineMode
  predicates : List Predicate
deriving BEq

structure RuleSet where
  resource : String
  rules : List Rule
deriving BEq

namespace Predicate

def ofDocument? : Decoder Predicate := fun δ d => do
  let fs ← Document.fields? ["field_key", "operator", "values"] δ d
  return { field := ← required δ fs "field_key" Document.text?
           operator := ← required δ fs "operator" Operator.ofDocument?
           values := ← defaulted δ fs "values" [] (Document.list? Value.ofDocument?) }

def toDocument (p : Predicate) : Document :=
  .table [("field_key", .text p.field), ("operator", p.operator.toDocument),
    ("values", .list (p.values.map Value.toDocument))]

end Predicate

namespace Rule

/-- The mode of the rule; a rule without one asks for all its predicates. -/
def mode (r : Rule) : CombineMode := r.combine.getD .and

def ofDocument? : Decoder Rule := fun δ d => do
  let fs ← Document.fields? ["priority", "combine", "predicates"] δ d
  return { priority := ← defaulted δ fs "priority" 0 Document.int32?
           combine := ← nullable δ fs "combine" CombineMode.ofDocument?
           predicates := ← defaulted δ fs "predicates" [] (Document.list? Predicate.ofDocument?) }

def toDocument (r : Rule) : Document :=
  .table [("priority", .int r.priority.toInt),
    ("combine", .optional CombineMode.toDocument r.combine),
    ("predicates", .list (r.predicates.map Predicate.toDocument))]

end Rule

namespace RuleSet

/-- The rules by descending priority; rules of one priority stay in their order. -/
def ordered (s : RuleSet) : List Rule := s.rules.mergeSort fun a b => b.priority ≤ a.priority

def ofDocument? : Decoder RuleSet := fun δ d => do
  let fs ← Document.fields? ["resource_id", "rules"] δ d
  return { resource := ← required δ fs "resource_id" Document.text?
           rules := ← defaulted δ fs "rules" [] (Document.list? Rule.ofDocument?) }

def toDocument (s : RuleSet) : Document :=
  .table [("resource_id", .text s.resource), ("rules", .list (s.rules.map Rule.toDocument))]

end RuleSet

end DataAccess
