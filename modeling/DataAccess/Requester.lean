import DataAccess.Value.Document

/-!
# Requesters

Who asks. A requester without an id is anonymous, and may have attributes all the same.
-/

namespace DataAccess

structure Requester where
  id : Option String
  attributes : Dictionary Value
deriving BEq

namespace Requester

def anonymous : Requester := ⟨none, ∅⟩

instance : Inhabited Requester := ⟨anonymous⟩

def named (id : String) : Requester := ⟨some id, ∅⟩

def withAttribute (r : Requester) (name : String) (v : Value) : Requester :=
  { r with attributes := r.attributes.insert name v }

/-- A requester is written with its id under a name that depends on where it stands. -/
def ofDocument? (idName : String) : Decoder Requester := fun δ d => do
  let fs ← Document.fields? [idName, "attributes"] δ d
  return { id := ← nullable δ fs idName Document.text?
           attributes := ← defaulted δ fs "attributes" ∅ Value.dictionary? }

def toDocument (idName : String) (r : Requester) : Document :=
  .table [(idName, .optional .text r.id), ("attributes", Value.dictionaryDocument r.attributes)]

end Requester

end DataAccess
