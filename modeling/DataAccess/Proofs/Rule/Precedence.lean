import DataAccess.Proofs.Sorting
import DataAccess.Rule.Basic

/-!
# Precedence

A rule set has one order of precedence: by descending priority, with the rules of one priority as
they were written (`precedence_iff`).
-/

namespace DataAccess.RuleSet

/-- Rules in the order of precedence of a set. -/
structure Precedence (s : RuleSet) (rs : List Rule) : Prop where
  descending : rs.Pairwise fun a b => b.priority ≤ a.priority
  written : ∀ p, rs.filter (·.priority = p) = s.rules.filter (·.priority = p)

section
variable (s : RuleSet)

theorem precedes_trans (a b c : Rule) (hab : decide (b.priority ≤ a.priority) = true)
    (hbc : decide (c.priority ≤ b.priority) = true) : decide (c.priority ≤ a.priority) = true := by
  rw [decide_eq_true_eq] at *
  exact Int32.le_trans hbc hab

theorem precedes_total (a b : Rule) :
    (decide (b.priority ≤ a.priority) || decide (a.priority ≤ b.priority)) = true := by
  rw [Bool.or_eq_true, decide_eq_true_eq, decide_eq_true_eq]
  exact Int32.le_total _ _

theorem ordered_perm : s.ordered.Perm s.rules := List.mergeSort_perm _ _

theorem ordered_descending : s.ordered.Pairwise fun a b => b.priority ≤ a.priority := by
  apply (List.pairwise_mergeSort precedes_trans precedes_total s.rules).imp
  exact of_decide_eq_true

/-- The rules of one priority are in order as they were written, so sorting leaves them so. -/
theorem ordered_written (p : Int32) :
    s.ordered.filter (·.priority = p) = s.rules.filter (·.priority = p) := by
  unfold ordered
  rw [filter_mergeSort precedes_trans precedes_total]
  apply List.mergeSort_of_pairwise
  apply List.pairwise_of_forall_mem_list
  intro a ha b hb
  rw [of_decide_eq_true (List.mem_filter.1 ha).2, of_decide_eq_true (List.mem_filter.1 hb).2]
  exact decide_eq_true (Int32.le_refl p)

theorem ordered_precedence : s.Precedence s.ordered := ⟨s.ordered_descending, s.ordered_written⟩

end

section
variable {s : RuleSet}

theorem mem_ordered {r : Rule} : r ∈ s.ordered ↔ r ∈ s.rules := s.ordered_perm.mem_iff

theorem ordered_eq_nil_iff : s.ordered = [] ↔ s.rules = [] := by
  simp only [List.eq_nil_iff_forall_not_mem, mem_ordered]

end

/-- Neither of two rules precedes the other when they have one priority. -/
theorem tied_precedes (a : Rule) :
    tied (fun a b : Rule => decide (b.priority ≤ a.priority)) a =
      fun b : Rule => decide (b.priority = a.priority) := by
  funext b
  apply Bool.eq_iff_iff.mpr
  simp only [tied_iff, decide_eq_true_eq]
  constructor
  · exact fun both => Int32.le_antisymm both.1 both.2
  · intro same
    rw [same]
    exact ⟨Int32.le_refl _, Int32.le_refl _⟩

/-- A list in descending order is determined by the rules of each priority. -/
theorem precedence_iff {s : RuleSet} {rs : List Rule} : s.Precedence rs ↔ rs = s.ordered := by
  constructor
  · intro h
    apply eq_of_tied precedes_total
    · exact h.descending.imp decide_eq_true
    · exact s.ordered_descending.imp decide_eq_true
    intro a
    simp only [tied_precedes, h.written, s.ordered_written]
  · rintro rfl
    exact s.ordered_precedence

end DataAccess.RuleSet
