import DataAccess.Decision.Constraint
import DataAccess.Proofs.Policy.Scope
import Mathlib.Data.List.Perm.Basic

/-!
# Columns

The column constraint of policies is the union of what those that restrict columns list and hide
(`columnConstraint?_eq_some_iff`). It depends on which policies there are, not on their order.
-/

namespace DataAccess

theorem NameSet.mem_foldl_union {columns : Policy → NameSet} {ps : List Policy} {s : NameSet}
    {n : String} :
    n ∈ ps.foldl (fun s p => s.union (columns p)) s ↔ n ∈ s ∨ ∃ p ∈ ps, n ∈ columns p := by
  induction ps generalizing s with
  | nil => simp
  | cons p ps ih => rw [List.foldl_cons, ih, mem_union, List.exists_mem_cons_iff, or_assoc]

theorem ColumnConstraint.ext_mem {k l : ColumnConstraint} (allow : ∀ n, n ∈ k.allow ↔ n ∈ l.allow)
    (deny : ∀ n, n ∈ k.deny ↔ n ∈ l.deny) : k = l := by
  obtain ⟨a, d⟩ := k
  obtain ⟨a', d'⟩ := l
  rw [mk.injEq]
  exact ⟨NameSet.ext_mem allow, NameSet.ext_mem deny⟩

/-- A constraint that lists and hides just what policies do. -/
structure ColumnConstraint.Unites (k : ColumnConstraint) (ps : List Policy) : Prop where
  allow : ∀ n, n ∈ k.allow ↔ ∃ p ∈ ps, n ∈ p.allowColumns
  deny : ∀ n, n ∈ k.deny ↔ ∃ p ∈ ps, n ∈ p.denyColumns

theorem ColumnConstraint.Unites.unique {k l : ColumnConstraint} {ps : List Policy}
    (hk : k.Unites ps) (hl : l.Unites ps) : k = l := by
  apply ColumnConstraint.ext_mem
  · intro n
    rw [hk.allow, hl.allow]
  · intro n
    rw [hk.deny, hl.deny]

theorem ColumnConstraint.Unites.of_members {k : ColumnConstraint} {ps qs : List Policy}
    (h : k.Unites ps) (members : ∀ p, p ∈ ps ↔ p ∈ qs) : k.Unites qs where
  allow := by simpa only [members] using h.allow
  deny := by simpa only [members] using h.deny

theorem columnConstraint?_eq_some_iff {ps : List Policy} {k : ColumnConstraint} :
    columnConstraint? ps = some k ↔
      ps.filter Policy.restrictsColumns ≠ [] ∧ k.Unites (ps.filter Policy.restrictsColumns) := by
  rw [columnConstraint?]
  cases ps.filter Policy.restrictsColumns with
  | nil => simp
  | cons q qs =>
    have united : ColumnConstraint.Unites
        ⟨qs.foldl (fun s p => s.union p.allowColumns) q.allowColumns,
          qs.foldl (fun s p => s.union p.denyColumns) q.denyColumns⟩ (q :: qs) := by
      constructor
      · intro n
        rw [NameSet.mem_foldl_union, List.exists_mem_cons_iff]
      · intro n
        rw [NameSet.mem_foldl_union, List.exists_mem_cons_iff]
    rw [Option.some.injEq]
    constructor
    · rintro rfl
      exact ⟨List.cons_ne_nil q qs, united⟩
    · rintro ⟨-, h⟩
      exact united.unique h

/-- A policy that restricts the columns it allows. -/
structure Policy.RestrictsColumns (p : Policy) : Prop where
  allows : p.effect = some .allow
  scope : p.HasScope .column

theorem Policy.restrictsColumns_iff {p : Policy} :
    p.restrictsColumns = true ↔ p.RestrictsColumns := by
  simp only [restrictsColumns, isAllow, Bool.and_eq_true, decide_eq_true_eq, resolvedScope_eq_iff]
  exact ⟨fun ⟨allows, scope⟩ => ⟨allows, scope⟩, fun h => ⟨h.allows, h.scope⟩⟩

theorem mem_filter_restrictsColumns {ps : List Policy} {p : Policy} :
    p ∈ ps.filter Policy.restrictsColumns ↔ p ∈ ps ∧ p.RestrictsColumns := by
  rw [List.mem_filter, Policy.restrictsColumns_iff]

theorem columnConstraint?_eq_none_iff {ps : List Policy} :
    columnConstraint? ps = none ↔ ∀ p ∈ ps, ¬p.RestrictsColumns := by
  have none : columnConstraint? ps = none ↔ ps.filter Policy.restrictsColumns = [] := by
    rw [columnConstraint?]
    cases ps.filter Policy.restrictsColumns <;> simp
  simp only [none, List.eq_nil_iff_forall_not_mem, mem_filter_restrictsColumns, not_and]

theorem columnConstraint?_isSome_iff {ps : List Policy} :
    (columnConstraint? ps).isSome ↔ ∃ p ∈ ps, p.RestrictsColumns := by
  rw [Option.isSome_iff_ne_none, ne_eq, columnConstraint?_eq_none_iff]
  simp

/-- Only policies that restrict columns count, and only which of them there are. -/
theorem columnConstraint?_congr_of_restricting {ps qs : List Policy}
    (members : ∀ p, p.RestrictsColumns → (p ∈ ps ↔ p ∈ qs)) :
    columnConstraint? ps = columnConstraint? qs := by
  have restricting : ∀ p, p ∈ ps.filter Policy.restrictsColumns ↔
      p ∈ qs.filter Policy.restrictsColumns := by
    intro p
    rw [mem_filter_restrictsColumns, mem_filter_restrictsColumns]
    exact and_congr_left (members p)
  have nonempty : ps.filter Policy.restrictsColumns ≠ [] ↔
      qs.filter Policy.restrictsColumns ≠ [] := by
    simp only [ne_eq, List.eq_nil_iff_forall_not_mem, restricting]
  ext k
  rw [columnConstraint?_eq_some_iff, columnConstraint?_eq_some_iff, nonempty]
  apply and_congr_right
  intro _
  constructor
  · exact fun h => h.of_members restricting
  · exact fun h => h.of_members fun p => (restricting p).symm

theorem columnConstraint?_congr {ps qs : List Policy} (members : ∀ p, p ∈ ps ↔ p ∈ qs) :
    columnConstraint? ps = columnConstraint? qs :=
  columnConstraint?_congr_of_restricting fun p _ => members p

end DataAccess
