import DataAccess.Rule.Fault

/-!
# Literals

Which values become literals of SQL, which two values bound a range, and which patterns are safe:
a text, the start of a text or its end.
-/

namespace DataAccess

namespace Value

/-- Constants are written as their names and temporal values as their texts. -/
def literal (operator : Operator) : Value → Except CompileFault Sql.Literal
  | null => .error (.nullValue operator)
  | text s => .ok (.text s)
  | enum name => .ok (.text name)
  | bool b => .ok (.int (if b then 1 else 0))
  | int n => .ok (.int n)
  | float x =>
    if x.isFinite then .ok (.float x) else .error (.unsupportedLiteral operator .nonFiniteFloat)
  | temporal t => .ok (.text t.text)
  | array _ => .error (.unsupportedLiteral operator (.kind .array))
  | map _ => .error (.unsupportedLiteral operator (.kind .map))

/-- Whether two values bound a range: two numbers, or two texts or temporal values. -/
def bounds (low high : Value) : Bool :=
  (low.isNumber && high.isNumber) || (low.isTextOrTemporal && high.isTextOrTemporal)

end Value

/-- Whether a pattern has no `%`, or just one at its start or its end beside other text. -/
def isSafePattern (pattern : List Char) : Bool :=
  match pattern.count '%' with
  | 0 => pattern ≠ []
  | 1 => 1 < pattern.length && (pattern.head? = some '%' || pattern.getLast? = some '%')
  | _ => false

end DataAccess
