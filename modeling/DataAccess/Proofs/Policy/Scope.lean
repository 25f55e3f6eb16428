import DataAccess.Policy.Basic
import DataAccess.Proofs.Text.Trim

/-!
# Scopes

A policy has the range that its row range leaves without the blanks around it, and none if nothing
is left. Its scope is its own or follows from what it has: a range means rows, columns without a
range mean columns, and neither means the resource. These relations read the fields of a policy, and
what is computed from them agrees (`rangeText?_eq_some_iff`, `resolvedScope_eq_iff`).
-/

namespace DataAccess.Policy

/-- The row range of a policy says this between blanks. -/
structure HasRange (p : Policy) (s : String) : Prop where
  given : ∃ t, p.rowRange = some t ∧ s = Text.trim t
  nonempty : s ≠ ""

/-- A policy lists a column or hides one. -/
def NamesColumns (p : Policy) : Prop := ∃ column, column ∈ p.allowColumns ∨ column ∈ p.denyColumns

/-- The scope that a policy has, either its own or, if it has none, inferred. -/
inductive HasScope (p : Policy) : Scope → Prop where
  | own {s} (given : p.scope = some s) : HasScope p s
  | row {s} (absent : p.scope = none) (range : p.HasRange s) : HasScope p .row
  | column (absent : p.scope = none) (unranged : ∀ s, ¬p.HasRange s) (names : p.NamesColumns) :
      HasScope p .column
  | resource (absent : p.scope = none) (unranged : ∀ s, ¬p.HasRange s)
      (unnamed : ¬p.NamesColumns) : HasScope p .resource

variable {p : Policy} {s : Scope} {text : String}

theorem rangeText?_eq_some_iff : p.rangeText? = some text ↔ p.HasRange text := by
  rw [rangeText?, Option.filter_eq_some_iff, Option.map_eq_some_iff, decide_eq_true_eq]
  constructor
  · rintro ⟨⟨t, given, rfl⟩, nonempty⟩
    exact ⟨⟨t, given, rfl⟩, nonempty⟩
  · rintro ⟨⟨t, given, rfl⟩, nonempty⟩
    exact ⟨⟨t, given, rfl⟩, nonempty⟩

theorem HasRange.trim (h : p.HasRange text) : Text.trim text = text := by
  obtain ⟨⟨t, -, rfl⟩, -⟩ := h
  exact Text.trim_trim t

theorem isSome_rangeText?_iff : p.rangeText?.isSome = true ↔ ∃ text, p.HasRange text := by
  simp only [Option.isSome_iff_exists, rangeText?_eq_some_iff]

theorem isEmpty_columns_iff :
    (p.allowColumns.isEmpty && p.denyColumns.isEmpty) = true ↔ ¬p.NamesColumns := by
  rw [Bool.and_eq_true, NameSet.isEmpty_iff, NameSet.isEmpty_iff, NamesColumns, ← forall_and]
  simp only [not_exists, not_or]

theorem hasScope_resolvedScope (p : Policy) : p.HasScope p.resolvedScope := by
  rw [resolvedScope]
  split
  · rename_i given
    exact .own given
  · rename_i absent
    split
    · rename_i ranged
      obtain ⟨text, range⟩ := isSome_rangeText?_iff.mp ranged
      exact .row absent range
    · rename_i unranged
      rw [isSome_rangeText?_iff, not_exists] at unranged
      split
      · rename_i unnamed
        exact .resource absent unranged (isEmpty_columns_iff.mp unnamed)
      · rename_i named
        exact .column absent unranged (not_not.mp (mt isEmpty_columns_iff.mpr named))

theorem HasScope.resolvedScope_eq (h : p.HasScope s) : p.resolvedScope = s := by
  rw [resolvedScope]
  cases h with
  | own given => rw [given]
  | row absent range =>
    have ranged : ∃ text, p.HasRange text := ⟨_, range⟩
    simp only [absent, isSome_rangeText?_iff, ranged, if_true]
  | column absent unranged names =>
    simp only [absent, isSome_rangeText?_iff, isEmpty_columns_iff, not_exists.mpr unranged, names,
      not_true, if_false]
  | resource absent unranged unnamed =>
    simp only [absent, isSome_rangeText?_iff, isEmpty_columns_iff, not_exists.mpr unranged, unnamed,
      not_false_eq_true, if_true, if_false]

theorem resolvedScope_eq_iff : p.resolvedScope = s ↔ p.HasScope s := by
  refine ⟨?_, HasScope.resolvedScope_eq⟩
  rintro rfl
  exact p.hasScope_resolvedScope

end DataAccess.Policy
