import DataAccess.Proofs.Decision.Columns
import DataAccess.Proofs.Decision.Relevance
import DataAccess.Proofs.Range.Alternatives

/-!
# Order

Candidates in another order lead to the same decision, which lists policies and ranges in another
order (`evaluate_rearranges`). The groups of its row filter are the same, each with its parameters.
-/

namespace DataAccess

/-- A filter that is made of the filters of texts, each a condition between parentheses with its
own parameters. -/
structure RowFilter.MadeOf (f : RowFilter) (c : RangeContext) (texts : List String)
    (groups : List RowFilter) : Prop where
  built : List.Forall₂ (fun s g => (RowRange.text s).build c = .ok g) texts groups
  parenthesized : ∀ g ∈ groups, ∃ condition, g.sql = "(" ++ condition ++ ")"
  sql : f.sql = " OR ".intercalate (groups.map RowFilter.sql)
  params : f.params = groups.flatMap RowFilter.params

/-- Filters of the same groups in two orders of their texts. -/
def RowFilter.Rearranges (c : RangeContext) (texts texts' : List String) (f g : RowFilter) : Prop :=
  ∃ groups groups', f.MadeOf c texts groups ∧ g.MadeOf c texts' groups' ∧ groups.Perm groups'

/-- The same decision, with what it lists in another order. -/
structure Explained.Rearranges (c : RangeContext) (x y : Explained) : Prop where
  verdict : x.decision.verdict = y.decision.verdict
  inherited : x.inherited = y.inherited
  columns : x.decision.columns = y.decision.columns
  allowIds : x.allowIds.Perm y.allowIds
  denyIds : x.denyIds.Perm y.denyIds
  ranges : x.ranges.Perm y.ranges
  rowFilter : Option.Rel (RowFilter.Rearranges c x.ranges y.ranges)
    x.decision.rowFilter y.decision.rowFilter

section
variable {c : RangeContext} {ps qs : List Policy}

theorem RowRange.madeOf_leaves {r : RowRange} {f : RowFilter} (h : r.build c = .ok f) :
    ∃ groups, f.MadeOf c r.leaves groups := by
  rw [build_leaves, map_eq_ok_iff] at h
  obtain ⟨groups, built, rfl⟩ := h
  have each := mapM_eq_ok_iff.mp built
  exact ⟨groups, each, build_texts_parenthesized each, rfl, rfl⟩

theorem RowFilter.MadeOf.groups_perm {f g : RowFilter} {texts texts' : List String}
    {groups groups' : List RowFilter} (hf : f.MadeOf c texts groups)
    (hg : g.MadeOf c texts' groups') (perm : texts.Perm texts') : groups.Perm groups' :=
  List.rel_perm_imp (rightUnique_ok fun s => (RowRange.text s).build c) hf.built hg.built perm

theorem verdict_congr (members : ∀ p, p ∈ ps ↔ p ∈ qs) : verdict ps = verdict qs := by
  apply Verdict.eq_of_allow_iff
  simp only [verdict_eq_allow_iff, members]

theorem rowFilter_succeeds_congr (members : ∀ p, p ∈ ps ↔ p ∈ qs) :
    (∃ res, rowFilter c ps = .ok res) ↔ ∃ res, rowFilter c qs = .ok res := by
  simp only [served_iff, members]

theorem rowFilter_madeOf {res : ResolvedFilter} (h : rowFilter c ps = .ok (some res)) :
    ∃ groups, res.filter.MadeOf c (ps.filterMap Policy.rowText?) groups := by
  obtain ⟨-, ⟨-, none⟩ | ⟨r, f, found, built, some⟩⟩ := rowFilter_eq_ok_iff.mp h
  · cases none
  · cases some
    rw [← RowRange.leaves_alternatives? found]
    exact RowRange.madeOf_leaves built

/-- Policies in two orders have filters of the same groups. -/
theorem rowFilter_rearranges (perm : ps.Perm qs) {res res' : Option ResolvedFilter}
    (h : rowFilter c ps = .ok res) (h' : rowFilter c qs = .ok res') :
    Option.Rel (RowFilter.Rearranges c (ps.filterMap Policy.rowText?)
      (qs.filterMap Policy.rowText?)) (res.map ResolvedFilter.filter)
      (res'.map ResolvedFilter.filter) := by
  have texts := perm.filterMap Policy.rowText?
  have present : res.isSome ↔ res'.isSome := by
    rw [(rowFilter_ranges h).2, (rowFilter_ranges h').2, ne_eq, ne_eq, ← List.isEmpty_iff,
      ← List.isEmpty_iff, texts.isEmpty_eq]
  cases res with
  | none =>
    cases res' with
    | none => exact .none
    | some res' => simp at present
  | some res =>
    cases res' with
    | none => simp at present
    | some res' =>
      obtain ⟨groups, made⟩ := rowFilter_madeOf h
      obtain ⟨groups', made'⟩ := rowFilter_madeOf h'
      exact .some ⟨groups, groups', made, made', made.groups_perm made' texts⟩

end

/-- A decision on the same candidates in another order is the same, and so is all that it lists,
but for the order. -/
theorem evaluate_rearranges (ρ : Reach) (c : DecisionContext) {ps qs : List Policy}
    (perm : ps.Perm qs) :
    (evaluate ρ (c.considering ps)).Rearranges c.range (evaluate ρ (c.considering qs)) := by
  have applicable : ((c.considering ps).applicable ρ).Perm ((c.considering qs).applicable ρ) :=
    perm.filter _
  have members : ∀ p, p ∈ (c.considering ps).applicable ρ ↔ p ∈ (c.considering qs).applicable ρ :=
    fun p => applicable.mem_iff
  have allowIds : (evaluate ρ (c.considering ps)).allowIds.Perm
      (evaluate ρ (c.considering qs)).allowIds := by
    rw [evaluate_allowIds, evaluate_allowIds]
    exact (applicable.filter _).map _
  have denyIds : (evaluate ρ (c.considering ps)).denyIds.Perm
      (evaluate ρ (c.considering qs)).denyIds := by
    rw [evaluate_denyIds, evaluate_denyIds]
    exact (applicable.filter _).map _
  have inherited := evaluate_inherited_congr members
  obtain ⟨res, res', built, built', ⟨ranges, reason, decision⟩, ranges', reason', decision'⟩ |
    ⟨⟨ranges, reason, decision⟩, ranges', reason', decision'⟩ :=
    evaluate_both_cases (verdict_congr members) (rowFilter_succeeds_congr members)
  · rw [(rowFilter_ranges built).1] at ranges
    rw [(rowFilter_ranges built').1] at ranges'
    refine ⟨?_, inherited, ?_, allowIds, denyIds, ?_, ?_⟩
    · rw [decision, decision']
      rfl
    · rw [decision, decision']
      exact columnConstraint?_congr members
    · rw [ranges, ranges']
      exact applicable.filterMap _
    · rw [ranges, ranges', decision, decision']
      exact rowFilter_rearranges applicable built built'
  · refine ⟨?_, inherited, ?_, allowIds, denyIds, ?_, ?_⟩
    · rw [decision, decision']
      rfl
    · rw [decision, decision']
      rfl
    · rw [ranges, ranges']
    · rw [decision, decision']
      exact .none

/-- All may read a document's rows of their own. -/
def ownRows : Policy :=
  { Policy.create "a" "read" "doc" .allow with
    scope := some .row, rowRange := some "owner = ${subjectId}" }

/-- All may read a document's rows of their tenant. -/
def tenantRows : Policy :=
  { Policy.create "b" "read" "doc" .allow with
    scope := some .row, rowRange := some "tenant = ${tenantCode}" }

theorem evaluate_rearranges_two_ranges :
    [ownRows, tenantRows].Perm [tenantRows, ownRows] ∧
      (evaluate .self (tenantRequest.considering [ownRows, tenantRows])).Rearranges
        tenantRequest.range (evaluate .self (tenantRequest.considering [tenantRows, ownRows])) := by
  have swapped : [ownRows, tenantRows].Perm [tenantRows, ownRows] := .swap _ _ []
  exact ⟨swapped, evaluate_rearranges .self tenantRequest swapped⟩

end DataAccess
