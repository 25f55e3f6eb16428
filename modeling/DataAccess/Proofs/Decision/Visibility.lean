import DataAccess.Proofs.Decision.Columns
import Mathlib.Data.Fintype.EquivFin

/-!
# Visibility

Policies that restrict columns expose a column when none of them hides it and one of them lists it,
or none lists any (`columnConstraint?_exposes`). An empty list restricts nothing, so the hidden
columns of a constraint cannot be taken off its list beforehand: what is not listed is exposed when
nothing is left of the list, and in no other case (`resolved_agrees_iff`).
-/

namespace DataAccess

/-- There are more names than a set holds. -/
theorem NameSet.exists_not_mem (s : NameSet) : ∃ n, n ∉ s := by
  have : Infinite String := .of_injective String.ofList fun _ _ => String.ofList_injective
  obtain ⟨n, hn⟩ := Infinite.exists_notMem_finset s.names.toFinset
  exact ⟨n, fun mem => hn (List.mem_toFinset.mpr mem)⟩

namespace ColumnConstraint

/-- The same constraint without hidden columns on its list. -/
def resolved (k : ColumnConstraint) : ColumnConstraint := { k with allow := k.effective }

section
variable {k : ColumnConstraint} {column : String}

theorem allows_iff :
    k.allows column = true ↔ column ∉ k.deny ∧ (k.allow = ∅ ∨ column ∈ k.allow) := by
  simp [allows, NameSet.isEmpty_iff, NameSet.eq_empty_iff]

theorem mem_allow_resolved : column ∈ k.resolved.allow ↔ column ∈ k.allow ∧ column ∉ k.deny :=
  NameSet.mem_diff

/-- A constraint with a list of which every column is hidden. -/
structure HidesList (k : ColumnConstraint) : Prop where
  listed : k.allow ≠ ∅
  hidden : ∀ n ∈ k.allow, n ∈ k.deny

theorem allow_resolved_eq_empty_iff : k.resolved.allow = ∅ ↔ k.allow = ∅ ∨ k.HidesList := by
  have nothing : k.resolved.allow = ∅ ↔ ∀ n ∈ k.allow, n ∈ k.deny := by
    simp only [NameSet.eq_empty_iff, mem_allow_resolved, not_and, not_not]
  rw [nothing]
  constructor
  · intro hidden
    by_cases listed : k.allow = ∅
    · exact .inl listed
    · exact .inr ⟨listed, hidden⟩
  · rintro (none | list)
    · exact fun n hn => absurd hn (NameSet.eq_empty_iff.mp none n)
    · exact list.hidden

theorem HidesList.allows_eq_false (list : k.HidesList) : k.allows column = false := by
  apply Bool.eq_false_iff.mpr
  intro shown
  obtain ⟨unhidden, listed⟩ := allows_iff.mp shown
  exact unhidden (list.hidden column (listed.resolve_left list.listed))

theorem allows_resolved_iff :
    k.resolved.allows column = true ↔ k.allows column = true ∨ k.HidesList ∧ column ∉ k.deny := by
  rw [allows_iff, allows_iff, allow_resolved_eq_empty_iff, mem_allow_resolved]
  change column ∉ k.deny ∧ _ ↔ _
  tauto

end

/-- Taking hidden columns off the list never hides a column that was exposed. It exposes one that
was not exactly when all that is listed is hidden, and the column is not. -/
theorem resolved_agrees_iff (k : ColumnConstraint) :
    (∀ column, k.allows column = true → k.resolved.allows column = true) ∧
      (∀ column, k.resolved.allows column = k.allows column ↔
        ¬(k.HidesList ∧ column ∉ k.deny)) ∧
      ((∀ column, k.resolved.allows column = k.allows column) ↔ ¬k.HidesList) := by
  have agrees : ∀ column, k.resolved.allows column = k.allows column ↔
      ¬(k.HidesList ∧ column ∉ k.deny) := by
    intro column
    rw [Bool.eq_iff_iff, allows_resolved_iff, or_iff_left_iff_imp]
    constructor
    · rintro shown ⟨list, unhidden⟩
      simpa [list.allows_eq_false] using shown ⟨list, unhidden⟩
    · exact fun apart exposed => absurd exposed apart
  refine ⟨fun column shown => allows_resolved_iff.mpr (.inl shown), agrees, ?_⟩
  simp only [agrees]
  constructor
  · intro apart list
    obtain ⟨column, unhidden⟩ := k.deny.exists_not_mem
    exact apart column ⟨list, unhidden⟩
  · exact fun other column exposed => other exposed.1

/-- Only one column is listed, and it is hidden. -/
def noneLeft : ColumnConstraint := ⟨.ofList ["ssn"], .ofList ["ssn"]⟩

theorem unlisted_exposed_by_resolving :
    noneLeft.allows "name" = false ∧ noneLeft.resolved.allows "name" = true := by
  decide

end ColumnConstraint

/-- A column that no policy hides, and that one lists if any column is listed. -/
structure Exposed (ps : List Policy) (column : String) : Prop where
  unhidden : ∀ p ∈ ps, p.RestrictsColumns → column ∉ p.denyColumns
  listed : (∀ p ∈ ps, p.RestrictsColumns → p.allowColumns = ∅) ∨
    ∃ p ∈ ps, p.RestrictsColumns ∧ column ∈ p.allowColumns

section
variable {ps : List Policy} {p : Policy} {column : String}

theorem allows_iff_exposed {k : ColumnConstraint} (found : columnConstraint? ps = some k) :
    k.allows column = true ↔ Exposed ps column := by
  have united := (columnConstraint?_eq_some_iff.mp found).2
  have unhidden : column ∉ k.deny ↔
      ∀ p ∈ ps, p.RestrictsColumns → column ∉ p.denyColumns := by
    simp only [united.deny, mem_filter_restrictsColumns, not_exists, not_and, and_imp]
  have unlisted : k.allow = ∅ ↔ ∀ p ∈ ps, p.RestrictsColumns → p.allowColumns = ∅ := by
    simp only [NameSet.eq_empty_iff, united.allow, mem_filter_restrictsColumns, not_exists,
      not_and, and_imp]
    exact ⟨fun h p hp restricts n => h n p hp restricts,
      fun h n p hp restricts => h p hp restricts n⟩
  have listed : column ∈ k.allow ↔ ∃ p ∈ ps, p.RestrictsColumns ∧ column ∈ p.allowColumns := by
    simp only [united.allow, mem_filter_restrictsColumns, and_assoc]
  rw [ColumnConstraint.allows_iff, unhidden, unlisted, listed]
  exact ⟨fun ⟨h, h'⟩ => ⟨h, h'⟩, fun h => ⟨h.unhidden, h.listed⟩⟩

/-- A policy that lists no columns exposes none. -/
theorem Exposed.of_append (exposed : Exposed (ps ++ [p]) column) (unlisting : p.allowColumns = ∅) :
    Exposed ps column where
  unhidden q hq := exposed.unhidden q (List.mem_append_left _ hq)
  listed := by
    rcases exposed.listed with none | ⟨q, hq, restricts, listed⟩
    · exact .inl fun q hq => none q (List.mem_append_left _ hq)
    · right
      rcases List.mem_append.mp hq with hq | hq
      · exact ⟨q, hq, restricts, listed⟩
      · rw [List.mem_singleton.mp hq] at listed
        exact absurd listed (NameSet.eq_empty_iff.mp unlisting column)

theorem columnConstraint?_append_cons (apart : ¬p.RestrictsColumns) (qs : List Policy) :
    columnConstraint? (ps ++ p :: qs) = columnConstraint? (ps ++ qs) := by
  apply columnConstraint?_congr_of_restricting
  intro q restricts
  have other : q ≠ p := by
    rintro rfl
    exact apart restricts
  simp [other]

end

/-- The columns that policies expose, if any of them restricts columns. Their order does not count,
nor how often they come, nor any other policies. One that lists no columns exposes none that the
others do not. -/
theorem columnConstraint?_exposes (ps : List Policy) :
    (∀ k, columnConstraint? ps = some k →
        ∀ column, k.allows column = true ↔ Exposed ps column) ∧
      (columnConstraint? ps = none ↔ ∀ p ∈ ps, ¬p.RestrictsColumns) ∧
      (∀ qs, (∀ p, p ∈ qs ↔ p ∈ ps) → columnConstraint? qs = columnConstraint? ps) ∧
      (∀ p, ¬p.RestrictsColumns →
        ∀ qs, columnConstraint? (ps ++ p :: qs) = columnConstraint? (ps ++ qs)) ∧
      ∀ p k, p.RestrictsColumns → p.allowColumns = ∅ → columnConstraint? ps = some k →
        ∃ l, columnConstraint? (ps ++ [p]) = some l ∧
          ∀ column, k.allows column = false → l.allows column = false := by
  refine ⟨fun k found column => allows_iff_exposed found, columnConstraint?_eq_none_iff,
    fun qs members => columnConstraint?_congr members,
    fun p apart qs => columnConstraint?_append_cons apart qs, ?_⟩
  intro p k restricts unlisting found
  cases more : columnConstraint? (ps ++ [p]) with
  | none =>
    have apart := columnConstraint?_eq_none_iff.mp more p (by simp)
    exact absurd restricts apart
  | some l =>
    refine ⟨l, rfl, fun column => ?_⟩
    rw [Bool.eq_false_iff, Bool.eq_false_iff, ne_eq, ne_eq, allows_iff_exposed found,
      allows_iff_exposed more]
    exact mt fun exposed => exposed.of_append unlisting

end DataAccess
