import DataAccess.Decision.Merge
import Mathlib.Data.List.Basic

/-!
# Merging

Both ways to merge effects, up to the first denial or by collecting ids, allow when some policy
allows and none denies, and so give the same verdict (`merge_verdict`).
-/

namespace DataAccess

theorem Verdict.ne_allow_iff {v : Verdict} : v ≠ .allow ↔ v = .deny := by
  cases v <;> simp

theorem Verdict.eq_of_allow_iff {v w : Verdict} (h : v = .allow ↔ w = .allow) : v = w := by
  cases v <;> cases w <;> simp_all

theorem verdictFrom_eq_allow_iff {allowed : Bool} {ps : List Policy} :
    verdictFrom allowed ps = .allow ↔
      (allowed = true ∨ ∃ p ∈ ps, p.effect = some .allow) ∧ ∀ p ∈ ps, p.effect ≠ some .deny := by
  induction ps generalizing allowed with
  | nil => cases allowed <;> simp [verdictFrom]
  | cons p ps ih =>
    rw [verdictFrom, List.exists_mem_cons_iff, List.forall_mem_cons]
    cases effect : p.effect with
    | none => simp [ih]
    | some e =>
      cases e with
      | allow => simp [ih]
      | deny => simp

theorem verdict_eq_allow_iff {ps : List Policy} :
    verdict ps = .allow ↔
      (∃ p ∈ ps, p.effect = some .allow) ∧ ∀ p ∈ ps, p.effect ≠ some .deny := by
  rw [verdict, verdictFrom_eq_allow_iff]
  simp

theorem idsOf_eq_nil_iff {e : Effect} {ps : List Policy} :
    idsOf e ps = [] ↔ ∀ p ∈ ps, p.effect ≠ some e := by
  simp [idsOf]

theorem merge_verdict_eq_allow_iff {ps : List Policy} :
    (merge ps).verdict = .allow ↔
      (∃ p ∈ ps, p.effect = some .allow) ∧ ∀ p ∈ ps, p.effect ≠ some .deny := by
  have allowance : idsOf .allow ps ≠ [] ↔ ∃ p ∈ ps, p.effect = some .allow := by
    rw [ne_eq, idsOf_eq_nil_iff]
    simp
  rw [← allowance, ← idsOf_eq_nil_iff, and_comm]
  simp [merge]

theorem merge_verdict (ps : List Policy) : (merge ps).verdict = verdict ps := by
  apply Verdict.eq_of_allow_iff
  rw [merge_verdict_eq_allow_iff, verdict_eq_allow_iff]

end DataAccess
