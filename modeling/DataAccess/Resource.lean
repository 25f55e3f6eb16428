import DataAccess.Document.Schema

/-!
# Resources

What is accessed, and which resources it lies under.
-/

namespace DataAccess

structure Resource where
  typeCode : Option String := none
  code : Option String := none
  parentCode : Option String := none
  ancestorCodes : NameSet := ∅
deriving DecidableEq

namespace Resource

instance : Inhabited Resource := ⟨{}⟩

/-- Whether a code is that of an ancestor, of the parent or a further one. -/
def isUnder (r : Resource) (code : String) : Bool :=
  code ∈ r.ancestorCodes || r.parentCode = some code

def ofDocument? : Decoder Resource := fun δ d => do
  let fs ← Document.fields? ["type_code", "code", "parent_code", "parent_codes"] δ d
  return { typeCode := ← nullable δ fs "type_code" Document.text?
           code := ← nullable δ fs "code" Document.text?
           parentCode := ← nullable δ fs "parent_code" Document.text?
           ancestorCodes := ← defaulted δ fs "parent_codes" ∅ Document.nameSet? }

def toDocument (r : Resource) : Document :=
  .table [("type_code", .optional .text r.typeCode), ("code", .optional .text r.code),
    ("parent_code", .optional .text r.parentCode), ("parent_codes", .names r.ancestorCodes)]

end Resource

end DataAccess
