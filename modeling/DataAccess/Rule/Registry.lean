import DataAccess.Rule.Column

/-!
# Field registries

The columns behind the field keys of resources. Rules know field keys only.
-/

namespace DataAccess

/-- The column of a field of a resource. -/
abbrev FieldLookup := String → String → Option Column

structure Registry where
  fields : List ((String × String) × Column)

namespace Registry

def empty : Registry := ⟨[]⟩

/-- Registers a field; an earlier column of the field goes. -/
def register (r : Registry) (resource field : String) (column : Column) : Registry :=
  ⟨((resource, field), column) :: r.fields.filter (·.1 ≠ (resource, field))⟩

def resolve (r : Registry) : FieldLookup := fun resource field =>
  r.fields.lookup (resource, field)

def size (r : Registry) : Nat := r.fields.length

end Registry

end DataAccess
