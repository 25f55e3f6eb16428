import DataAccess.Proofs.Decision.Evaluation

/-!
# Agreement

Policies without an effect change nothing but the reason of a decision. Two contexts with the same
applicable policies otherwise lead to decisions that agree (`evaluate_agrees`).
-/

namespace DataAccess

/-- The same decision from the same policies, for reasons that may differ. -/
structure Explained.Agrees (x y : Explained) : Prop where
  verdict : x.decision.verdict = y.decision.verdict
  rowFilter : x.decision.rowFilter = y.decision.rowFilter
  columns : x.decision.columns = y.decision.columns
  allowIds : x.allowIds = y.allowIds
  denyIds : x.denyIds = y.denyIds
  ranges : x.ranges = y.ranges
  inherited : x.inherited = y.inherited

def Policy.hasEffect (p : Policy) : Bool := p.effect.isSome

theorem Policy.hasEffect_of_allow {p : Policy} (allows : p.effect = some .allow) :
    p.hasEffect = true := by
  rw [hasEffect, allows, Option.isSome_some]

section
variable (ps : List Policy)

theorem idsOf_filter_hasEffect (e : Effect) :
    idsOf e (ps.filter Policy.hasEffect) = idsOf e ps := by
  rw [idsOf, List.filter_filter, idsOf]
  congr 1
  apply List.filter_congr
  intro p _
  by_cases h : p.effect = some e <;> simp [Policy.hasEffect, h]

variable {ps} in
/-- Ids stay the same only if every policy that contributes stays. -/
theorem kept_of_idsOf_filter {e : Effect} {q : Policy → Bool}
    (same : idsOf e (ps.filter q) = idsOf e ps) {p : Policy} (hp : p ∈ ps)
    (effect : p.effect = some e) : q p = true := by
  have lengths := congrArg List.length same
  rw [idsOf, idsOf, List.length_map, List.length_map, List.filter_comm,
    List.length_filter_eq_length_iff] at lengths
  exact lengths p (List.mem_filter.2 ⟨hp, decide_eq_true effect⟩)

theorem verdict_filter_hasEffect : verdict (ps.filter Policy.hasEffect) = verdict ps := by
  rw [← merge_verdict, ← merge_verdict, merge, merge, idsOf_filter_hasEffect,
    idsOf_filter_hasEffect]

theorem rowFilter_filter_hasEffect (c : RangeContext) :
    rowFilter c (ps.filter Policy.hasEffect) = rowFilter c ps := by
  have texts : (ps.filter Policy.hasEffect).filterMap Policy.rowText? =
      ps.filterMap Policy.rowText? := by
    rw [List.filterMap_filter]
    apply List.filterMap_congr
    intro p _
    cases text : p.rowText? with
    | none => simp
    | some s => simp [Policy.hasEffect_of_allow (Policy.rowText?_eq_some_iff.1 text).allows]
  rw [rowFilter, texts, rowFilter]

theorem columnConstraint?_filter_hasEffect :
    columnConstraint? (ps.filter Policy.hasEffect) = columnConstraint? ps := by
  apply columnConstraint?_congr_of_restricting
  intro p restricts
  rw [List.mem_filter]
  exact and_iff_left (Policy.hasEffect_of_allow restricts.allows)

end

section
variable {ρ : Reach} {c d : DecisionContext}

/-- Contexts agree that differ in policies without an effect. -/
theorem evaluate_agrees (range : c.range = d.range)
    (same : (c.applicable ρ).filter Policy.hasEffect = (d.applicable ρ).filter Policy.hasEffect)
    (inherited : (evaluate ρ c).inherited = (evaluate ρ d).inherited) :
    (evaluate ρ c).Agrees (evaluate ρ d) := by
  have verdicts : verdict (c.applicable ρ) = verdict (d.applicable ρ) := by
    rw [← verdict_filter_hasEffect, same, verdict_filter_hasEffect]
  have rows : rowFilter c.range (c.applicable ρ) = rowFilter d.range (d.applicable ρ) := by
    rw [← rowFilter_filter_hasEffect, same, rowFilter_filter_hasEffect, range]
  have columns : columnConstraint? (c.applicable ρ) = columnConstraint? (d.applicable ρ) := by
    rw [← columnConstraint?_filter_hasEffect, same, columnConstraint?_filter_hasEffect]
  have ids (e : Effect) : idsOf e (c.applicable ρ) = idsOf e (d.applicable ρ) := by
    rw [← idsOf_filter_hasEffect, same, idsOf_filter_hasEffect]
  have allowIds : (evaluate ρ c).allowIds = (evaluate ρ d).allowIds := by
    rw [evaluate_allowIds, evaluate_allowIds, ids]
  have denyIds : (evaluate ρ c).denyIds = (evaluate ρ d).denyIds := by
    rw [evaluate_denyIds, evaluate_denyIds, ids]
  have served : (∃ res, rowFilter c.range (c.applicable ρ) = .ok res) ↔
      ∃ res, rowFilter d.range (d.applicable ρ) = .ok res := by
    rw [rows]
  obtain ⟨res, res', built, built', ⟨ranges, reason, decision⟩, ranges', reason', decision'⟩ |
    ⟨⟨ranges, reason, decision⟩, ranges', reason', decision'⟩ := evaluate_both_cases verdicts served
  · have eq : res = res' := by
      rw [rows, built'] at built
      cases built
      rfl
    subst eq
    refine ⟨?_, ?_, ?_, allowIds, denyIds, by rw [ranges, ranges'], inherited⟩
    all_goals rw [decision, decision']
    · rfl
    · rfl
    · exact columns
  · refine ⟨?_, ?_, ?_, allowIds, denyIds, by rw [ranges, ranges'], inherited⟩
    all_goals rw [decision, decision']; rfl

end

end DataAccess
