import DataAccess.Decision.Basic

/-!
# Audit records

What is kept of a decision: who asked for what, and how it ended.
-/

namespace DataAccess.Audit

/-- A number of 128 bits. -/
structure RecordId where
  bits : BitVec 128
deriving DecidableEq

namespace RecordId

def nil : RecordId := ⟨0⟩

def hexChars : Nat → Nat → List Char
  | 0, _ => []
  | k + 1, n => hexChars k (n / 16) ++ [Nat.digitChar (n % 16)]

/-- The 32 hexadecimal digits in groups of 8, 4, 4, 4 and 12. -/
def text (i : RecordId) : String :=
  let cs := hexChars 32 i.bits.toNat
  String.ofList (cs.take 8 ++ '-' :: (cs.drop 8).take 4 ++ '-' :: (cs.drop 12).take 4 ++ '-' ::
    (cs.drop 16).take 4 ++ '-' :: cs.drop 20)

end RecordId

structure Record where
  id : RecordId
  time : Instant
  subject : Option String
  tenant : Option String
  action : Option String
  resource : Option String
  verdict : Verdict
  reason : String
  allowIds : List String
  denyIds : List String
deriving DecidableEq

namespace Record

def ofExplained (id : RecordId) (time : Instant) (c : DecisionContext) (x : Explained) : Record :=
  { id := id
    time := time
    subject := c.subject.id
    tenant := c.tenant
    action := c.action
    resource := c.resource.code
    verdict := x.decision.verdict
    reason := x.decision.reason
    allowIds := x.allowIds
    denyIds := x.denyIds }

/-- Whether a policy contributed to the decision. -/
def involves (r : Record) (policy : String) : Bool := policy ∈ r.allowIds || policy ∈ r.denyIds

def toDocument (r : Record) : Document :=
  .table [("id", .text r.id.text), ("timestamp", r.time.toDocument),
    ("subject_id", .optional .text r.subject), ("tenant_code", .optional .text r.tenant),
    ("action_code", .optional .text r.action), ("resource_code", .optional .text r.resource),
    ("decision_type", r.verdict.toDocument), ("reason", .text r.reason),
    ("allow_policy_ids", .list (r.allowIds.map .text)),
    ("deny_policy_ids", .list (r.denyIds.map .text))]

end Record

end DataAccess.Audit
