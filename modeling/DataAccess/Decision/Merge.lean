import DataAccess.Policy.Basic

/-!
# Merging effects

A denial overrides every allowance, and nothing is allowed without one.
-/

namespace DataAccess

/-- The verdict of policies, up to the first denial; `allowed` tells whether one allowed before. -/
def verdictFrom (allowed : Bool) : List Policy → Verdict
  | [] => if allowed then .allow else .deny
  | p :: ps =>
    match p.effect with
    | some .deny => .deny
    | some .allow => verdictFrom true ps
    | none => verdictFrom allowed ps

def verdict (ps : List Policy) : Verdict := verdictFrom false ps

def idsOf (effect : Effect) (ps : List Policy) : List String :=
  (ps.filter (·.effect = some effect)).map Policy.id

/-- A verdict with the policies that contribute to it. -/
structure MergeOutcome where
  verdict : Verdict
  allowIds : List String
  denyIds : List String
deriving DecidableEq

def merge (ps : List Policy) : MergeOutcome :=
  let allowIds := idsOf .allow ps
  let denyIds := idsOf .deny ps
  { verdict := if denyIds.isEmpty && !allowIds.isEmpty then .allow else .deny
    allowIds := allowIds
    denyIds := denyIds }

end DataAccess
