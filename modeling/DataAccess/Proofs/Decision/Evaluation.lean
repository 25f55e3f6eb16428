import DataAccess.Decision.Evaluate
import DataAccess.Proofs.Decision.Columns
import DataAccess.Proofs.Decision.Constraints
import DataAccess.Proofs.Decision.Merging

/-!
# Evaluation

A decision is determined by the policies that apply. It allows when their effects do and each text
that restricts rows can be served, and it denies otherwise, without restrictions
(`evaluate_failsClosed`).
-/

namespace DataAccess

/-- What comes of the policies that apply. -/
def Outcome.ofApplicable (c : RangeContext) (ps : List Policy) : Outcome :=
  match (merge ps).verdict with
  | .deny => denial ps (merge ps).denyIds
  | .allow => allowance c ps (merge ps).allowIds

section
variable {ρ : Reach} {c : DecisionContext}

theorem Survey.check_applicable (s : Survey) (p : Policy) :
    (s.check ρ c p).applicable =
      s.applicable ++ [p].filter fun p => (p.match? ρ c).isSome := by
  rw [check]
  cases h : p.match? ρ c <;> simp [h]

theorem Survey.check_inherited (s : Survey) (p : Policy) :
    (s.check ρ c p).inherited = (s.inherited || p.match? ρ c = some .inherited) := by
  rw [check]
  cases p.match? ρ c <;> simp

theorem Survey.foldl_check_applicable (s : Survey) (ps : List Policy) :
    (ps.foldl (check ρ c) s).applicable =
      s.applicable ++ ps.filter fun p => (p.match? ρ c).isSome := by
  induction ps generalizing s with
  | nil => simp
  | cons p ps ih =>
    rw [List.foldl_cons, ih, check_applicable, List.append_assoc, ← List.filter_append,
      List.singleton_append]

theorem Survey.foldl_check_inherited (s : Survey) (ps : List Policy) :
    (ps.foldl (check ρ c) s).inherited =
      (s.inherited || ps.any fun p => p.match? ρ c = some .inherited) := by
  induction ps generalizing s with
  | nil => simp
  | cons p ps ih =>
    rw [List.foldl_cons, ih, check_inherited, List.any_cons, Bool.or_assoc]

/-- One pass finds the policies that apply. -/
theorem survey_applicable : (c.survey ρ).applicable = c.applicable ρ := by
  rw [DecisionContext.survey, Survey.foldl_check_applicable, DecisionContext.applicable,
    List.nil_append]

theorem survey_inherited_iff :
    (c.survey ρ).inherited = true ↔ ∃ p ∈ c.applicable ρ, p.match? ρ c = some .inherited := by
  rw [DecisionContext.survey, Survey.foldl_check_inherited, Bool.false_or, List.any_eq_true]
  constructor
  · rintro ⟨p, hp, h⟩
    have inherited := of_decide_eq_true h
    exact ⟨p, List.mem_filter.2 ⟨hp, by simp [inherited]⟩, inherited⟩
  · rintro ⟨p, hp, h⟩
    exact ⟨p, (List.mem_filter.1 hp).1, decide_eq_true h⟩

theorem evaluate_allowIds : (evaluate ρ c).allowIds = idsOf .allow (c.applicable ρ) := by
  rw [evaluate, survey_applicable, merge]

theorem evaluate_denyIds : (evaluate ρ c).denyIds = idsOf .deny (c.applicable ρ) := by
  rw [evaluate, survey_applicable, merge]

theorem evaluate_inherited_iff :
    (evaluate ρ c).inherited = true ↔ ∃ p ∈ c.applicable ρ, p.match? ρ c = some .inherited :=
  survey_inherited_iff

theorem evaluate_decision :
    (evaluate ρ c).decision = (Outcome.ofApplicable c.range (c.applicable ρ)).decision := by
  rw [evaluate, survey_applicable]
  rfl

theorem evaluate_ranges :
    (evaluate ρ c).ranges = (Outcome.ofApplicable c.range (c.applicable ρ)).ranges := by
  rw [evaluate, survey_applicable]
  rfl

theorem evaluate_inherited : (evaluate ρ c).inherited = (c.survey ρ).inherited := rfl

theorem evaluate_explain :
    (evaluate ρ c).explain =
      (c.survey ρ).explain ++ (Outcome.ofApplicable c.range (c.applicable ρ)).explain := by
  rw [evaluate, survey_applicable]
  rfl

theorem Outcome.allowance_ok {c : RangeContext} {ps : List Policy} {res : Option ResolvedFilter}
    (h : rowFilter c ps = .ok res) (ids : List String) :
    ∃ reason, (allowance c ps ids).decision =
        .allow reason (res.map ResolvedFilter.filter) (columnConstraint? ps) ∧
      (allowance c ps ids).ranges = (res.map ResolvedFilter.ranges).getD [] := by
  rw [allowance, h]
  exact ⟨_, rfl, rfl⟩

theorem Outcome.allowance_error {c : RangeContext} {ps : List Policy} {e : RangeError}
    (h : rowFilter c ps = .error e) (ids : List String) :
    ∃ reason, (allowance c ps ids).decision = .deny reason ∧ (allowance c ps ids).ranges = [] := by
  rw [allowance, h]
  exact ⟨_, rfl, rfl⟩

theorem evaluate_of_verdict_allow (h : verdict (c.applicable ρ) = .allow) :
    ∃ ids,
      (evaluate ρ c).decision = (Outcome.allowance c.range (c.applicable ρ) ids).decision ∧
      (evaluate ρ c).ranges = (Outcome.allowance c.range (c.applicable ρ) ids).ranges := by
  rw [evaluate_decision, evaluate_ranges, Outcome.ofApplicable, merge_verdict, h]
  exact ⟨_, rfl, rfl⟩

theorem evaluate_of_verdict_deny (h : verdict (c.applicable ρ) = .deny) :
    ∃ reason, (evaluate ρ c).decision = .deny reason ∧ (evaluate ρ c).ranges = [] := by
  rw [evaluate_decision, evaluate_ranges, Outcome.ofApplicable, merge_verdict, h]
  exact ⟨_, rfl, rfl⟩

/-- A decision that allows with a row filter and a column constraint. -/
def Explained.Grants (x : Explained) (res : Option ResolvedFilter)
    (columns : Option ColumnConstraint) : Prop :=
  x.ranges = (res.map ResolvedFilter.ranges).getD [] ∧
    ∃ reason, x.decision = .allow reason (res.map ResolvedFilter.filter) columns

/-- A decision that denies, without constraints. -/
def Explained.Refuses (x : Explained) : Prop :=
  x.ranges = [] ∧ ∃ reason, x.decision = .deny reason

variable (ρ c) in
/-- A decision allows with the constraints of the policies that apply, or denies with none. -/
theorem evaluate_cases :
    (verdict (c.applicable ρ) = .allow ∧ ∃ res, rowFilter c.range (c.applicable ρ) = .ok res ∧
        (evaluate ρ c).Grants res (columnConstraint? (c.applicable ρ))) ∨
      (¬(verdict (c.applicable ρ) = .allow ∧
          ∃ res, rowFilter c.range (c.applicable ρ) = .ok res) ∧
        (evaluate ρ c).Refuses) := by
  by_cases allows : verdict (c.applicable ρ) = .allow
  · obtain ⟨ids, decision, ranges⟩ := evaluate_of_verdict_allow allows
    unfold Explained.Grants Explained.Refuses
    rw [decision, ranges]
    cases built : rowFilter c.range (c.applicable ρ) with
    | ok res =>
      obtain ⟨reason, decision, ranges⟩ := Outcome.allowance_ok built ids
      exact .inl ⟨allows, res, rfl, ranges, reason, decision⟩
    | error e =>
      obtain ⟨reason, decision, ranges⟩ := Outcome.allowance_error built ids
      refine .inr ⟨?_, ranges, reason, decision⟩
      rintro ⟨-, res, eq⟩
      cases eq
  · obtain ⟨reason, decision, ranges⟩ := evaluate_of_verdict_deny (Verdict.ne_allow_iff.1 allows)
    exact .inr ⟨fun h => allows h.1, ranges, reason, decision⟩

/-- Two decisions both allow or both deny when their effects merge alike and their texts are both
served or both not. -/
theorem evaluate_both_cases {d : DecisionContext}
    (verdicts : verdict (c.applicable ρ) = verdict (d.applicable ρ))
    (served : (∃ res, rowFilter c.range (c.applicable ρ) = .ok res) ↔
      ∃ res, rowFilter d.range (d.applicable ρ) = .ok res) :
    (∃ res res', rowFilter c.range (c.applicable ρ) = .ok res ∧
        rowFilter d.range (d.applicable ρ) = .ok res' ∧
        (evaluate ρ c).Grants res (columnConstraint? (c.applicable ρ)) ∧
        (evaluate ρ d).Grants res' (columnConstraint? (d.applicable ρ))) ∨
      ((evaluate ρ c).Refuses ∧ (evaluate ρ d).Refuses) := by
  obtain ⟨merged, res, built, granted⟩ | ⟨fails, refused⟩ := evaluate_cases ρ c
  all_goals
    obtain ⟨merged', res', built', granted'⟩ | ⟨fails', refused'⟩ := evaluate_cases ρ d
  · exact .inl ⟨res, res', built, built', granted, granted'⟩
  · exact absurd ⟨verdicts ▸ merged, served.mp ⟨res, built⟩⟩ fails'
  · exact absurd ⟨verdicts ▸ merged', served.mpr ⟨res', built'⟩⟩ fails
  · exact .inr ⟨refused, refused'⟩

end

/-- What a decision says of the policies that apply. It allows when their effects do and every text
that restricts rows can be served, and it denies without constraints. -/
structure Explained.FailsClosed (x : Explained) (ρ : Reach) (c : DecisionContext) : Prop where
  merged : verdict (c.applicable ρ) = .allow ↔
    (∃ p ∈ c.applicable ρ, p.effect = some .allow) ∧
      ∀ p ∈ c.applicable ρ, p.effect ≠ some .deny
  allows : x.decision.verdict = .allow ↔
    verdict (c.applicable ρ) = .allow ∧
      ∀ p ∈ c.applicable ρ, ∀ s, p.RestrictsRows s → c.range.Serves s
  denied : x.decision.verdict = .deny →
    x.decision.rowFilter = none ∧ x.decision.columns = none ∧ x.ranges = []
  rows : x.decision.verdict = .allow →
    (x.decision.rowFilter.isSome ↔ ∃ p ∈ c.applicable ρ, ∃ s, p.RestrictsRows s)
  ranges : x.decision.verdict = .allow → RowTexts (c.applicable ρ) x.ranges
  columns : x.decision.verdict = .allow →
    (x.decision.columns.isSome ↔ ∃ p ∈ c.applicable ρ, p.RestrictsColumns)
  inherited : x.inherited = true ↔ ∃ p ∈ c.applicable ρ, p.match? ρ c = some .inherited

section
variable {ρ : Reach} {c : DecisionContext}

theorem served_iff {c : RangeContext} {ps : List Policy} :
    (∃ res, rowFilter c ps = .ok res) ↔ ∀ p ∈ ps, ∀ s, p.RestrictsRows s → c.Serves s := by
  rw [rowFilter_succeeds_iff]
  simp only [List.mem_filterMap, Policy.rowText?_eq_some_iff, forall_exists_index, and_imp]
  exact ⟨fun h p hp s hs => h s p hp hs, fun h s p hp hs => h p hp s hs⟩

theorem rowTexts_ne_nil_iff {ps : List Policy} :
    ps.filterMap Policy.rowText? ≠ [] ↔ ∃ p ∈ ps, ∃ s, p.RestrictsRows s := by
  simp only [ne_eq, List.filterMap_eq_nil_iff, not_forall, ← Policy.rowText?_eq_some_iff,
    ← Option.isSome_iff_exists, Option.isSome_iff_ne_none, exists_prop]

theorem evaluate_failsClosed (ρ : Reach) (c : DecisionContext) :
    (evaluate ρ c).FailsClosed ρ c := by
  obtain ⟨merged, res, built, ranges, reason, decision⟩ | ⟨fails, ranges, reason, decision⟩ :=
    evaluate_cases ρ c
  · have allows : (evaluate ρ c).decision.verdict = .allow := by rw [decision, Decision.allow]
    obtain ⟨texts, present⟩ := rowFilter_ranges built
    refine ⟨verdict_eq_allow_iff, ?_, ?_, ?_, ?_, ?_, evaluate_inherited_iff⟩
    · exact iff_of_true allows ⟨merged, served_iff.1 ⟨res, built⟩⟩
    · intro denied
      rw [allows] at denied
      cases denied
    · intro _
      rw [decision, ← rowTexts_ne_nil_iff, ← present, Decision.allow, Option.isSome_map]
    · intro _
      rw [ranges, texts]
      exact rowTexts_filterMap _
    · intro _
      rw [decision, ← columnConstraint?_isSome_iff]
      rfl
  · have denied : (evaluate ρ c).decision.verdict = .deny := by rw [decision, Decision.deny]
    have refused : (evaluate ρ c).decision.verdict ≠ .allow := Verdict.ne_allow_iff.2 denied
    refine ⟨verdict_eq_allow_iff, ?_, ?_, ?_, ?_, ?_, evaluate_inherited_iff⟩
    · rw [served_iff] at fails
      exact iff_of_false refused fails
    · intro _
      rw [decision]
      exact ⟨rfl, rfl, ranges⟩
    · exact fun allows => absurd allows refused
    · exact fun allows => absurd allows refused
    · exact fun allows => absurd allows refused

end

end DataAccess
