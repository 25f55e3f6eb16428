import DataAccess.Decision.Basic
import DataAccess.Decision.Match
import DataAccess.Decision.Merge

/-!
# Evaluation

A decision never fails: where something is wrong with the policies that apply, it denies.
-/

namespace DataAccess

/-- A decision under way: what it is, the ranges in its filter, and the log of getting there. -/
structure Outcome where
  decision : Decision
  ranges : List String
  explain : Explain

/-- What one pass over candidates finds: those that apply, whether one of them is inherited, and
the log of checking them. -/
structure Survey where
  applicable : List Policy
  inherited : Bool
  explain : Explain

/-- Checks a further candidate. -/
def Survey.check (defaultReach : Reach) (c : DecisionContext) (s : Survey) (p : Policy) : Survey :=
  match p.match? defaultReach c with
  | some m =>
    { applicable := s.applicable ++ [p]
      inherited := s.inherited || m = .inherited
      explain := s.explain.push .info ("policy '" ++ p.id ++ "' applies") }
  | none => { s with explain := s.explain.push .info ("policy '" ++ p.id ++ "' does not apply") }

def DecisionContext.survey (defaultReach : Reach) (c : DecisionContext) : Survey :=
  c.policies.foldl (Survey.check defaultReach c)
    ⟨[], false, [⟨.info, toString c.policies.length ++ " candidate policies"⟩]⟩

def denialReason (applicable : List Policy) (denyIds : List String) : String :=
  match denyIds with
  | id :: _ => "denied by policy '" ++ id ++ "'"
  | [] =>
    if applicable.isEmpty then "no applicable policy"
    else "no applicable policy allows the request"

def Outcome.denial (applicable : List Policy) (denyIds : List String) : Outcome :=
  let reason := denialReason applicable denyIds
  ⟨.deny reason, [], [⟨.info, reason⟩]⟩

def ColumnConstraint.explain (k : ColumnConstraint) : Explain :=
  ⟨.info, "column constraint: " ++ toString k.allow.size ++ " allowed, " ++
    toString k.deny.size ++ " denied"⟩ ::
  if k.conflicts.isEmpty then []
  else [⟨.warn, toString k.conflicts.size ++ " column(s) both allowed and denied; deny wins"⟩]

/-- What comes of policies that allow the request. A range that has no filter denies it. -/
def Outcome.allowance (c : RangeContext) (applicable : List Policy) (allowIds : List String) :
    Outcome :=
  match rowFilter c applicable with
  | .error e =>
    ⟨.deny ("row filter could not be built: " ++ e.message), [],
      [⟨.error, "row filter failed: " ++ e.message⟩]⟩
  | .ok resolved =>
    let columns := columnConstraint? applicable
    let reason := "allowed by policy '" ++ "', '".intercalate allowIds ++ "'"
    let ranges := (resolved.map ResolvedFilter.ranges).getD []
    let rows : String :=
      if resolved.isSome then
        "row filter built from " ++ toString ranges.length ++ " range expression(s)"
      else "no row restriction"
    ⟨.allow reason (resolved.map ResolvedFilter.filter) columns, ranges,
      ⟨.info, rows⟩ :: (columns.map ColumnConstraint.explain).getD []⟩

def evaluate (defaultReach : Reach) (c : DecisionContext) : Explained :=
  let survey := c.survey defaultReach
  let merged := merge survey.applicable
  let outcome :=
    match merged.verdict with
    | .deny => Outcome.denial survey.applicable merged.denyIds
    | .allow => Outcome.allowance c.range survey.applicable merged.allowIds
  { decision := outcome.decision
    allowIds := merged.allowIds
    denyIds := merged.denyIds
    ranges := outcome.ranges
    inherited := survey.inherited
    explain := survey.explain ++ outcome.explain }

end DataAccess
