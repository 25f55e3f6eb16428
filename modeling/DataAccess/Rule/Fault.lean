import DataAccess.Rule.Basic

/-!
# Faults of rules

Why a rule set does not compile. The messages name operators, fields, variables and kinds, never
a value.
-/

namespace DataAccess

/-- What stands in a diagnostic for a value that is no literal. -/
inductive Unsupported where
  | kind (k : Value.Kind)
  | nonFiniteFloat
deriving DecidableEq

def Unsupported.name : Unsupported → String
  | kind k => k.name
  | nonFiniteFloat => "non-finite float"

inductive CompileFault where
  | emptyRuleSet (resource : String)
  | noValidExpression (resource : String)
  | unknownField (resource field : String)
  | arity (operator : Operator) (field : String) (actual : Nat)
  | unsupportedLiteral (operator : Operator) (type : Unsupported)
  | nullValue (operator : Operator)
  | unsafeLikePattern (field : String)
  | emptyLikePattern (field : String)
  | betweenTypeMismatch (field : String) (lower upper : Value.Kind)
  | missingVariable (name : String)
  | mapValue (field : String)
  | nestingTooDeep (field : String) (maxDepth : Nat)
deriving DecidableEq

namespace CompileFault

def message : CompileFault → String
  | emptyRuleSet resource => "rule set '" ++ resource ++ "' has no rules"
  | noValidExpression resource =>
    "rule set '" ++ resource ++ "' produced no valid rule expression"
  | unknownField resource field =>
    "field '" ++ field ++ "' is not registered for resource '" ++ resource ++ "'"
  | arity operator field actual =>
    operator.name ++ " on field '" ++ field ++ "' expects " ++ operator.arity ++
      " value(s), got " ++ toString actual
  | unsupportedLiteral operator type =>
    operator.name ++ " does not accept values of type " ++ type.name
  | nullValue operator => operator.name ++ " does not accept null values"
  | unsafeLikePattern field =>
    "LIKE pattern on field '" ++ field ++ "' must be a pure prefix or suffix match"
  | emptyLikePattern field => "LIKE pattern on field '" ++ field ++ "' is empty"
  | betweenTypeMismatch field lower upper =>
    "BETWEEN on field '" ++ field ++ "' has incompatible bounds (" ++ lower.name ++ " and " ++
      upper.name ++ ")"
  | missingVariable name => "variable '" ++ name ++ "' is not present in the access context"
  | mapValue field => "map values are not accepted as predicate values (field '" ++ field ++ "')"
  | nestingTooDeep field maxDepth =>
    "value nesting on field '" ++ field ++ "' exceeds depth " ++ toString maxDepth

end CompileFault

end DataAccess
