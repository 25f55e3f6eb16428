import DataAccess.Proofs.Decision.Evaluation
import DataAccess.Proofs.Text.Trim

/-!
# Relevance

A decision reads its candidates only through those that apply (`evaluate_ignores_inapplicable`).
Policies of other tenants never apply, so leaving them out changes nothing but the log.
-/

namespace DataAccess

/-- The same request with other candidates. -/
def DecisionContext.considering (c : DecisionContext) (ps : List Policy) : DecisionContext :=
  { c with policies := ps }

/-- The same in all but the log. -/
structure Explained.SameOutcome (x y : Explained) : Prop where
  decision : x.decision = y.decision
  allowIds : x.allowIds = y.allowIds
  denyIds : x.denyIds = y.denyIds
  ranges : x.ranges = y.ranges
  inherited : x.inherited = y.inherited

/-- A policy of a tenant that is not blank and is not the one of the request. -/
def Policy.IsForeign (p : Policy) (tenant : Option String) : Prop :=
  ∃ t, p.tenant = some t ∧ Text.trim t ≠ "" ∧ tenant ≠ some t

theorem Policy.isForeign_iff {p : Policy} {tenant : Option String} :
    p.IsForeign tenant ↔ p.isOpenTo tenant = false := by
  unfold IsForeign isOpenTo
  cases p.tenant with
  | none => simp
  | some t => simp [Text.trim_eq_empty_iff]

instance (p : Policy) (tenant : Option String) : Decidable (p.IsForeign tenant) :=
  decidable_of_iff _ Policy.isForeign_iff.symm

section
variable {ρ : Reach} {c : DecisionContext} {ps qs : List Policy}

@[simp] theorem considering_range : (c.considering ps).range = c.range := rfl

@[simp] theorem considering_tenant : (c.considering ps).tenant = c.tenant := rfl

@[simp] theorem match?_considering (p : Policy) :
    p.match? ρ (c.considering ps) = p.match? ρ c := rfl

@[simp] theorem applicable_considering :
    (c.considering ps).applicable ρ = ps.filter fun p => (p.match? ρ c).isSome := rfl

theorem evaluate_inherited_congr
    (members : ∀ p, p ∈ (c.considering ps).applicable ρ ↔ p ∈ (c.considering qs).applicable ρ) :
    (evaluate ρ (c.considering ps)).inherited = (evaluate ρ (c.considering qs)).inherited := by
  rw [Bool.eq_iff_iff, evaluate_inherited_iff, evaluate_inherited_iff]
  apply exists_congr
  intro p
  rw [members p, match?_considering, match?_considering]

theorem evaluate_sameOutcome
    (same : (c.considering ps).applicable ρ = (c.considering qs).applicable ρ) :
    (evaluate ρ (c.considering ps)).SameOutcome (evaluate ρ (c.considering qs)) := by
  refine ⟨?_, ?_, ?_, ?_, ?_⟩
  · rw [evaluate_decision, evaluate_decision, same, considering_range, considering_range]
  · rw [evaluate_allowIds, evaluate_allowIds, same]
  · rw [evaluate_denyIds, evaluate_denyIds, same]
  · rw [evaluate_ranges, evaluate_ranges, same, considering_range, considering_range]
  · apply evaluate_inherited_congr
    intro p
    rw [same]

theorem Policy.IsForeign.match?_eq_none {p : Policy} (foreign : p.IsForeign c.tenant) :
    p.match? ρ c = none := by
  unfold Policy.match? Policy.isEffective
  rw [Policy.isForeign_iff.mp foreign]
  simp

/-- What policies of other tenants would bring does not apply in any case. -/
theorem applicable_without_foreign :
    (c.considering (ps.filter fun p => ¬p.IsForeign c.tenant)).applicable ρ =
      (c.considering ps).applicable ρ := by
  rw [applicable_considering, applicable_considering, List.filter_filter]
  apply List.filter_congr
  intro p _
  by_cases foreign : p.IsForeign c.tenant
  · simp [foreign.match?_eq_none]
  · simp [foreign]

end

/-- Candidates of which the same ones apply lead to the same decision, for the same reason. Those
of other tenants may be left out, whatever they do. -/
theorem evaluate_ignores_inapplicable (ρ : Reach) (c : DecisionContext) (ps qs : List Policy) :
    ((c.considering ps).applicable ρ = (c.considering qs).applicable ρ →
      (evaluate ρ (c.considering ps)).SameOutcome (evaluate ρ (c.considering qs))) ∧
    (evaluate ρ (c.considering (ps.filter fun p => ¬p.IsForeign c.tenant))).SameOutcome
      (evaluate ρ (c.considering ps)) :=
  ⟨evaluate_sameOutcome, evaluate_sameOutcome applicable_without_foreign⟩

/-- A tenant asks to read a document. -/
def tenantRequest : DecisionContext :=
  { DecisionContext.request (.named "u-1") "read" { code := some "doc" } .epoch with
    tenant := some "acme" }

/-- Another tenant's denial, with a range that is not even a condition. -/
def foreignDenial : Policy :=
  { Policy.create "d" "read" "doc" .deny with
    tenant := some "globex", scope := some .row, rowRange := some "owner = (" }

theorem evaluate_ignores_foreign_denial :
    (tenantRequest.considering [foreignDenial, .create "a" "read" "doc" .allow]).applicable .self =
        (tenantRequest.considering [.create "a" "read" "doc" .allow]).applicable .self ∧
      (evaluate .self
          (tenantRequest.considering [foreignDenial, .create "a" "read" "doc" .allow])).SameOutcome
        (evaluate .self (tenantRequest.considering [.create "a" "read" "doc" .allow])) := by
  have same : (tenantRequest.considering
        [foreignDenial, .create "a" "read" "doc" .allow]).applicable .self =
      (tenantRequest.considering [.create "a" "read" "doc" .allow]).applicable .self := by decide
  exact ⟨same, (evaluate_ignores_inapplicable .self tenantRequest _ _).1 same⟩

end DataAccess
