import DataAccess.Policy.Store
import DataAccess.Proofs.Decision.Agreement
import DataAccess.Proofs.Decision.Matching
import DataAccess.Proofs.Text.Trim

/-!
# Prefilter

A store compares the tenant of a policy without the blanks around it, matching compares it as it is.
A policy that applies is therefore left out exactly when there are blanks around its tenant. What is
left out changes a decision when it has an effect, or when it alone is inherited
(`load_agrees_iff`).
-/

namespace DataAccess

/-- A tenant that is not blank and has blanks around it. -/
def Policy.Padded (p : Policy) : Prop :=
  ∃ t, p.tenant = some t ∧ Text.trim t ≠ "" ∧ Text.trim t ≠ t

section
variable {ρ : Reach} {c : DecisionContext} {p : Policy}

theorem Policy.tenant_eq_of_match (h : (p.match? ρ c).isSome) {t : String} (ht : p.tenant = some t)
    (nonblank : Text.trim t ≠ "") : c.tenant = some t :=
  ((match?_isSome_iff.mp h).tenant t ht).resolve_left nonblank

/-- A policy that applies is a candidate unless there are blanks around its tenant. -/
theorem Policy.isCandidate_iff (h : (p.match? ρ c).isSome) :
    PolicyStore.isCandidate c.tenant p = true ↔ ¬p.Padded := by
  rw [PolicyStore.isCandidate, Padded]
  cases ht : p.tenant with
  | none => simp
  | some t =>
    by_cases blank : Text.trim t = ""
    · simp [blank]
    · rw [tenant_eq_of_match h ht blank, Option.map_some]
      simp only [blank, decide_false, Bool.false_or, decide_eq_true_eq, Option.some.injEq,
        exists_eq_left', ne_eq, not_false_eq_true, true_and, not_not]
      exact eq_comm

theorem not_padded_of_trimmed (h : (p.match? ρ c).isSome)
    (trimmed : ∀ t, c.tenant = some t → Text.trim t = t) : ¬p.Padded := by
  rintro ⟨t, ht, nonblank, padded⟩
  exact padded (trimmed t (p.tenant_eq_of_match h ht nonblank))

end

namespace PolicyStore

variable {ρ : Reach} {s : PolicyStore} {c : DecisionContext}

/-- The context with all policies of a store. -/
def unfiltered (s : PolicyStore) (c : DecisionContext) : DecisionContext :=
  { c with policies := s.toList }

/-- The context with the policies that a store hands out for it. -/
def prefiltered (s : PolicyStore) (c : DecisionContext) : DecisionContext :=
  { c with policies := s.policiesFor c }

theorem load_source : c.load s.source = .ok (s.prefiltered c, (s.policiesFor c).length) := rfl

theorem match?_isSome_of_mem {p : Policy} (h : p ∈ (s.unfiltered c).applicable ρ) :
    (p.match? ρ c).isSome := (List.mem_filter.1 h).2

theorem applicable_prefiltered :
    (s.prefiltered c).applicable ρ =
      ((s.unfiltered c).applicable ρ).filter (isCandidate c.tenant) :=
  List.filter_comm _ _ _

theorem mem_applicable_prefiltered {p : Policy} :
    p ∈ (s.prefiltered c).applicable ρ ↔ p ∈ (s.unfiltered c).applicable ρ ∧ ¬p.Padded := by
  rw [applicable_prefiltered, List.mem_filter]
  exact and_congr_right fun h => p.isCandidate_iff (match?_isSome_of_mem h)

theorem applicable_prefiltered_hasEffect
    (harmless : ∀ p ∈ (s.unfiltered c).applicable ρ, p.Padded → p.effect = none) :
    ((s.prefiltered c).applicable ρ).filter Policy.hasEffect =
      ((s.unfiltered c).applicable ρ).filter Policy.hasEffect := by
  rw [applicable_prefiltered, List.filter_filter]
  apply List.filter_congr
  intro p hp
  rw [Bool.and_eq_left_iff_imp]
  intro effect
  rw [p.isCandidate_iff (match?_isSome_of_mem hp)]
  intro padded
  rw [Policy.hasEffect, harmless p hp padded] at effect
  cases effect

theorem inherited_prefiltered_iff :
    (evaluate ρ (s.prefiltered c)).inherited = (evaluate ρ (s.unfiltered c)).inherited ↔
      ((∃ p ∈ (s.unfiltered c).applicable ρ, p.match? ρ c = some .inherited ∧ p.Padded) →
        ∃ p ∈ (s.unfiltered c).applicable ρ, p.match? ρ c = some .inherited ∧ ¬p.Padded) := by
  rw [Bool.eq_iff_iff, evaluate_inherited_iff, evaluate_inherited_iff]
  constructor
  · rintro same ⟨p, hp, inherited, -⟩
    obtain ⟨q, hq, inherited⟩ := same.2 ⟨p, hp, inherited⟩
    obtain ⟨hq, plain⟩ := mem_applicable_prefiltered.1 hq
    exact ⟨q, hq, inherited, plain⟩
  · intro other
    constructor
    · rintro ⟨p, hp, inherited⟩
      exact ⟨p, (mem_applicable_prefiltered.1 hp).1, inherited⟩
    · rintro ⟨p, hp, inherited⟩
      by_cases padded : p.Padded
      · obtain ⟨q, hq, inherited, plain⟩ := other ⟨p, hp, inherited, padded⟩
        exact ⟨q, mem_applicable_prefiltered.2 ⟨hq, plain⟩, inherited⟩
      · exact ⟨p, mem_applicable_prefiltered.2 ⟨hp, padded⟩, inherited⟩

theorem agrees_iff :
    (evaluate ρ (s.prefiltered c)).Agrees (evaluate ρ (s.unfiltered c)) ↔
      (∀ p ∈ (s.unfiltered c).applicable ρ, p.Padded → p.effect = none) ∧
        ((∃ p ∈ (s.unfiltered c).applicable ρ, p.match? ρ c = some .inherited ∧ p.Padded) →
          ∃ p ∈ (s.unfiltered c).applicable ρ, p.match? ρ c = some .inherited ∧ ¬p.Padded) := by
  constructor
  · intro h
    refine ⟨?_, inherited_prefiltered_iff.1 h.inherited⟩
    intro p hp padded
    have dropped := (p.isCandidate_iff (match?_isSome_of_mem hp)).not.2 (not_not.2 padded)
    have allowIds := h.allowIds
    have denyIds := h.denyIds
    rw [evaluate_allowIds, evaluate_allowIds, applicable_prefiltered] at allowIds
    rw [evaluate_denyIds, evaluate_denyIds, applicable_prefiltered] at denyIds
    cases effect : p.effect with
    | none => rfl
    | some e =>
      cases e with
      | allow => exact absurd (kept_of_idsOf_filter allowIds hp effect) dropped
      | deny => exact absurd (kept_of_idsOf_filter denyIds hp effect) dropped
  · rintro ⟨harmless, other⟩
    exact evaluate_agrees rfl (applicable_prefiltered_hasEffect harmless)
      (inherited_prefiltered_iff.2 other)

/-- A store hands out the policies that apply without blanks around their tenants. The decision is
that of all policies when what is left out has no effect and is not all that is inherited. Nothing
is left out for a tenant without blanks around it. -/
theorem load_agrees_iff (ρ : Reach) (s : PolicyStore) (c : DecisionContext) :
    c.load s.source = .ok (s.prefiltered c, (s.policiesFor c).length) ∧
      (∀ p ∈ (s.unfiltered c).applicable ρ,
        p ∈ (s.prefiltered c).applicable ρ ↔ ¬p.Padded) ∧
      ((evaluate ρ (s.prefiltered c)).Agrees (evaluate ρ (s.unfiltered c)) ↔
        (∀ p ∈ (s.unfiltered c).applicable ρ, p.Padded → p.effect = none) ∧
          ((∃ p ∈ (s.unfiltered c).applicable ρ, p.match? ρ c = some .inherited ∧ p.Padded) →
            ∃ p ∈ (s.unfiltered c).applicable ρ, p.match? ρ c = some .inherited ∧ ¬p.Padded)) ∧
      ((∀ t, c.tenant = some t → Text.trim t = t) →
        (evaluate ρ (s.prefiltered c)).Agrees (evaluate ρ (s.unfiltered c))) := by
  refine ⟨load_source, ?_, agrees_iff, ?_⟩
  · intro p hp
    rw [mem_applicable_prefiltered]
    exact and_iff_right hp
  · intro trimmed
    have plain : ∀ p ∈ (s.unfiltered c).applicable ρ, ¬p.Padded := fun p hp =>
      not_padded_of_trimmed (match?_isSome_of_mem hp) trimmed
    rw [agrees_iff]
    constructor
    · exact fun p hp padded => absurd padded (plain p hp)
    · rintro ⟨p, hp, -, padded⟩
      exact absurd padded (plain p hp)

/-- A store that allows all to read a document, but not a tenant with blanks around it. -/
def exceptPadded : PolicyStore :=
  (empty.put (.create "a" "read" "doc" .allow)).put
    { Policy.create "d" "read" "doc" .deny with tenant := some " acme " }

/-- The tenant with blanks around it asks to read the document. -/
def paddedRequest : DecisionContext :=
  { DecisionContext.request (.named "u-1") "read" { code := some "doc" } .epoch with
    tenant := some " acme " }

theorem denial_left_out :
    (evaluate .self (exceptPadded.prefiltered paddedRequest)).decision.verdict = .allow ∧
      (evaluate .self (exceptPadded.unfiltered paddedRequest)).decision.verdict = .deny := by
  have all : exceptPadded.toList = exceptPadded.policies.values :=
    List.mergeSort_of_pairwise (by decide)
  rw [prefiltered, policiesFor, unfiltered, all]
  decide

end PolicyStore

end DataAccess
