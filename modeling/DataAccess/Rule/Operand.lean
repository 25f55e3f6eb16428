import DataAccess.Logged
import DataAccess.Requester
import DataAccess.Rule.Fault
import DataAccess.Rule.Settings
import DataAccess.Template.Basic

/-!
# Operands

The values of a predicate as they reach its operator. A text that is one placeholder stands for
an attribute of the requester; what it stands for is not read again. Arrays then give way to
their elements at any depth, and nulls are dropped.
-/

namespace DataAccess

/-- The value of a variable. The name of the requester's own variable hides an attribute. -/
def Requester.lookup (r : Requester) (s : CompilerSettings) (name : String) : Option Value :=
  if name = s.subjectVariable then r.id.map .text else r.attributes.get? name

namespace Operand

variable (s : CompilerSettings) (field : String)

/-- A value left out: a fault when strict, else an entry in the log. -/
def leaveOut (fault : CompileFault) (message : String) : Logged CompileFault (List Value) :=
  if s.strict then .fail fault else do
    .tell .error message
    return []

/-- The variable that an operand stands for. -/
def variableName? : Value → Option String
  | .text t => Template.soleName? t
  | _ => none

mutual

def flatten (depth : Nat) : Value → Logged CompileFault (List Value)
  | .null => do
    .tell .warn ("null value dropped on field '" ++ field ++ "'")
    return []
  | .map _ =>
    leaveOut s (.mapValue field) ((CompileFault.mapValue field).message ++ "; value dropped")
  | .array vs =>
    if s.maxDepth ≤ depth then .fail (.nestingTooDeep field s.maxDepth)
    else flattenItems (depth + 1) vs
  | v => return [v]

def flattenItems (depth : Nat) : List Value → Logged CompileFault (List Value)
  | [] => return []
  | v :: vs => do
    let here ← flatten depth v
    let rest ← flattenItems depth vs
    return here ++ rest

end

/-- The scalars that one operand comes to. -/
def resolve (r : Requester) (operand : Value) : Logged CompileFault (List Value) :=
  match variableName? operand with
  | none => flatten s field 0 operand
  | some name =>
    match r.lookup s name with
    | some v => flatten s field 0 v
    | none =>
      leaveOut s (.missingVariable name)
        ((CompileFault.missingVariable name).message ++ " (field '" ++ field ++
          "'); value dropped")

def resolveAll (r : Requester) (operands : List Value) : Logged CompileFault (List Value) := do
  let parts ← Logged.each (resolve s field r) operands
  return parts.flatten

end Operand

end DataAccess
