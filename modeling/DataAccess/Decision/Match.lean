import DataAccess.Decision.Context

/-!
# Matching

Whether a policy applies to a context. It has to be open to the tenant, in force at the time, and
to name the action and the resource, or a resource above it.
-/

namespace DataAccess

/-- How a policy reaches a resource: by naming it, or by naming one above it. -/
inductive Match where
  | direct
  | inherited
deriving DecidableEq

namespace Policy

/-- A policy without a tenant, or with a blank one, is open to all. -/
def isOpenTo (p : Policy) (tenant : Option String) : Bool :=
  match p.tenant with
  | none => true
  | some t => Text.isBlankText t || tenant = some t

def isInForce (p : Policy) (time : Instant) : Bool :=
  p.neverExpires ||
    match p.expiry with
    | none => true
    | some t => decide (time ≤ t)

def isEffective (p : Policy) (c : DecisionContext) : Bool :=
  p.isOpenTo c.tenant && p.isInForce c.time

/-- An action that is absent on either side matches none. -/
def namesAction (p : Policy) (action : Option String) : Bool :=
  match p.action, action with
  | some a, some b => Text.alike a b
  | _, _ => false

/-- Types are compared where both sides have one that is not blank. -/
def namesType (p : Policy) (r : Resource) : Bool :=
  match p.resourceType, r.typeCode with
  | some a, some b => Text.isBlankText a || Text.isBlankText b || Text.alike a b
  | _, _ => true

def names (code : String) (r : Resource) : Bool :=
  match r.code with
  | some c => Text.alike c code
  | none => false

def namesAncestor (p : Policy) (code : String) (r : Resource) : Bool := p.inherits && r.isUnder code

def resourceMatch? (defaultReach : Reach) (p : Policy) (r : Resource) : Option Match :=
  if p.namesType r then
    match p.resource with
    | none => none
    | some code =>
      match p.reach.getD defaultReach with
      | .self => if names code r then some .direct else none
      | .children => if p.namesAncestor code r then some .inherited else none
      | .selfAndChildren =>
        if names code r then some .direct
        else if p.namesAncestor code r then some .inherited
        else none
      | .other _ => none
  else none

def match? (defaultReach : Reach) (p : Policy) (c : DecisionContext) : Option Match :=
  if p.isEffective c && p.namesAction c.action then p.resourceMatch? defaultReach c.resource
  else none

end Policy

/-- The candidates that apply, in their order. -/
def DecisionContext.applicable (defaultReach : Reach) (c : DecisionContext) : List Policy :=
  c.policies.filter fun p => (p.match? defaultReach c).isSome

end DataAccess
