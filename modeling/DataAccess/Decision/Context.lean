import DataAccess.Policy.Basic
import DataAccess.Range.Filter

/-!
# Decision contexts

All that a decision depends on: who asks for what, on which resource, when, and which policies
are candidates.
-/

namespace DataAccess

structure DecisionContext where
  tenant : Option String
  subject : Requester
  resource : Resource
  action : Option String
  time : Instant
  environment : Dictionary Value
  policies : List Policy
deriving BEq

namespace DecisionContext

def request (subject : Requester) (action : String) (resource : Resource) (time : Instant) :
    DecisionContext :=
  { tenant := none, subject := subject, resource := resource, action := some action, time := time
    environment := ∅, policies := [] }

/-- The part of the context that placeholders are looked up in. -/
def range (c : DecisionContext) : RangeContext := ⟨c.tenant, c.subject, c.resource, c.environment⟩

def ofDocument? : Decoder DecisionContext := fun δ d => do
  let fs ← Document.fields? ["tenant_code", "subject", "resource", "action_code", "request_time",
    "environment", "policies"] δ d
  return { tenant := ← nullable δ fs "tenant_code" Document.text?
           subject := ← defaulted δ fs "subject" default (Requester.ofDocument? "id")
           resource := ← defaulted δ fs "resource" default Resource.ofDocument?
           action := ← nullable δ fs "action_code" Document.text?
           time := ← required δ fs "request_time" Instant.ofDocument?
           environment := ← defaulted δ fs "environment" ∅ Value.dictionary?
           policies := ← defaulted δ fs "policies" [] (Document.list? Policy.ofDocument?) }

def toDocument (c : DecisionContext) : Document :=
  .table [("tenant_code", .optional .text c.tenant), ("subject", c.subject.toDocument "id"),
    ("resource", c.resource.toDocument), ("action_code", .optional .text c.action),
    ("request_time", c.time.toDocument),
    ("environment", Value.dictionaryDocument c.environment),
    ("policies", .list (c.policies.map Policy.toDocument))]

end DecisionContext

end DataAccess
