import DataAccess.Document.Schema

/-!
# Settings of rule compilation

A strict compilation stops at a missing variable and at a map among the operands. A lenient one
logs them and goes on without them.
-/

namespace DataAccess

structure CompilerSettings where
  strict : Bool := true
  /-- The number of arrays that an operand may be nested in. -/
  maxDepth : Nat := 32
  /-- The variable that stands for the requester. -/
  subjectVariable : String := "userId"
deriving DecidableEq

namespace CompilerSettings

def lenient : CompilerSettings := { strict := false }

def ofDocument? : Decoder CompilerSettings := fun δ d => do
  let fs ← Document.fields? ["strict_variables", "max_value_depth", "subject_variable"] δ d
  let base : CompilerSettings := {}
  return { strict := ← defaulted δ fs "strict_variables" base.strict Document.bool?
           maxDepth := ← defaulted δ fs "max_value_depth" base.maxDepth Document.nat?
           subjectVariable :=
             ← defaulted δ fs "subject_variable" base.subjectVariable Document.text? }

def toDocument (s : CompilerSettings) : Document :=
  .table [("strict_variables", .bool s.strict), ("max_value_depth", .int s.maxDepth),
    ("subject_variable", .text s.subjectVariable)]

end CompilerSettings

end DataAccess
