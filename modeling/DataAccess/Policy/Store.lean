import DataAccess.Decision.Context
import DataAccess.Policy.Error

/-!
# Policy stores

A store keeps policies under their ids. A command that is refused leaves it as it was.
-/

namespace DataAccess

structure PolicyStore where
  policies : Dictionary Policy

namespace PolicyStore

def empty : PolicyStore := ⟨∅⟩

inductive Command where
  | add (p : Policy)
  | update (p : Policy)
  | remove (id : String)
  | clear

def put (s : PolicyStore) (p : Policy) : PolicyStore := ⟨s.policies.insert p.id p⟩

def contains (s : PolicyStore) (id : String) : Bool := (s.policies.get? id).isSome

def run (s : PolicyStore) : Command → PolicyStore × Except PolicyError Unit
  | .add p => if s.contains p.id then (s, .error (.conflict p.id)) else (s.put p, .ok ())
  | .update p => if s.contains p.id then (s.put p, .ok ()) else (s, .error (.notFound p.id))
  | .remove id =>
    if s.contains id then (⟨s.policies.erase id⟩, .ok ()) else (s, .error (.notFound id))
  | .clear => (empty, .ok ())

def get (s : PolicyStore) (id : String) : Except PolicyError Policy :=
  match s.policies.get? id with
  | some p => .ok p
  | none => .error (.notFound id)

/-- The policies in the order of their ids. -/
def toList (s : PolicyStore) : List Policy :=
  s.policies.values.mergeSort fun p q => p.id ≤ q.id

def size (s : PolicyStore) : Nat := s.policies.size

/-- Whether a policy is handed out for a tenant, by its own tenant without blanks around it. -/
def isCandidate (tenant : Option String) (p : Policy) : Bool :=
  match p.tenant.map Text.trim with
  | none => true
  | some t => t = "" || tenant = some t

def policiesFor (s : PolicyStore) (c : DecisionContext) : List Policy :=
  s.toList.filter (isCandidate c.tenant)

end PolicyStore

/-- Where candidates come from. -/
abbrev PolicySource := DecisionContext → Except PolicyError (List Policy)

def PolicyStore.source (s : PolicyStore) : PolicySource := fun c => .ok (s.policiesFor c)

/-- The context with the candidates of a source, and their number. -/
def DecisionContext.load (c : DecisionContext) (source : PolicySource) :
    Except PolicyError (DecisionContext × Nat) :=
  (source c).map fun ps => ({ c with policies := ps }, ps.length)

end DataAccess
