import Mathlib.Data.List.Sort

/-!
# Sorting

Elements are tied in a total preorder when neither has to stand before the other. Sorting leaves
tied elements in their order, and a sorted list is determined by its classes of tied elements
(`eq_of_tied`). So it makes no difference whether elements are left out before or after sorting
(`filter_mergeSort`).
-/

namespace DataAccess

universe u
variable {α : Type u} {le : α → α → Bool}

def tied (le : α → α → Bool) (a b : α) : Bool := le a b && le b a

@[simp] theorem tied_iff {a b : α} : tied le a b = true ↔ le a b = true ∧ le b a = true :=
  Bool.and_eq_true_iff

section
variable (total : ∀ a b, (le a b || le b a) = true)
include total

theorem tied_self (a : α) : tied le a a = true := by simpa using total a a

theorem mem_iff_of_tied {as bs : List α}
    (same : ∀ c, as.filter (tied le c) = bs.filter (tied le c)) (a : α) : a ∈ as ↔ a ∈ bs := by
  have h := congrArg (a ∈ ·) (same a)
  simpa [tied_self total a] using h

/-- The first of a sorted list stands before all of it. -/
theorem le_head {a b : α} {as : List α} (sorted : (a :: as).Pairwise fun x y => le x y = true)
    (mem : b ∈ a :: as) : le a b = true := by
  rcases List.mem_cons.mp mem with rfl | mem
  · simpa using total b b
  · exact (List.pairwise_cons.mp sorted).1 b mem

theorem eq_of_tied {as bs : List α} (sorted : as.Pairwise fun x y => le x y = true)
    (sorted' : bs.Pairwise fun x y => le x y = true)
    (same : ∀ c, as.filter (tied le c) = bs.filter (tied le c)) : as = bs := by
  induction as generalizing bs with
  | nil =>
    apply Eq.symm
    apply List.eq_nil_iff_forall_not_mem.mpr
    intro b hb
    exact absurd ((mem_iff_of_tied total same b).mpr hb) List.not_mem_nil
  | cons a as ih =>
    cases bs with
    | nil => exact absurd ((mem_iff_of_tied total same a).mp List.mem_cons_self) List.not_mem_nil
    | cons b bs =>
      have before := le_head total sorted ((mem_iff_of_tied total same b).mpr List.mem_cons_self)
      have behind := le_head total sorted' ((mem_iff_of_tied total same a).mp List.mem_cons_self)
      obtain ⟨rfl, -⟩ : a = b ∧ as.filter (tied le a) = bs.filter (tied le a) := by
        simpa [tied_self total a, before, behind] using same a
      congr 1
      apply ih sorted.of_cons sorted'.of_cons
      intro c
      have here := same c
      by_cases h : tied le c a = true <;> simpa only [List.filter_cons, h, if_true, if_false,
        List.cons.injEq, true_and, Bool.false_eq_true] using here

end

section
variable (trans : ∀ a b c, le a b = true → le b c = true → le a c = true)
  (total : ∀ a b, (le a b || le b a) = true)
include trans total

/-- Tied elements are in order as they stand, so sorting leaves them so. -/
theorem filter_tied_mergeSort (as : List α) (c : α) :
    (as.mergeSort le).filter (tied le c) = as.filter (tied le c) := by
  have sorted : (as.filter (tied le c)).Pairwise fun x y => le x y = true := by
    apply List.pairwise_of_forall_mem_list
    intro x hx y hy
    have before := tied_iff.mp (List.mem_filter.mp hx).2
    have behind := tied_iff.mp (List.mem_filter.mp hy).2
    exact trans x c y before.2 behind.1
  have kept := (List.sublist_mergeSort trans total sorted List.filter_sublist).filter (tied le c)
  rw [List.filter_filter] at kept
  simp only [Bool.and_self] at kept
  exact (kept.eq_of_length ((List.mergeSort_perm as le).filter _).length_eq.symm).symm

theorem filter_mergeSort (p : α → Bool) (as : List α) :
    (as.mergeSort le).filter p = (as.filter p).mergeSort le := by
  apply eq_of_tied total
  · exact (List.pairwise_mergeSort trans total as).filter p
  · exact List.pairwise_mergeSort trans total _
  intro c
  calc
    ((as.mergeSort le).filter p).filter (tied le c)
      = ((as.mergeSort le).filter (tied le c)).filter p := List.filter_comm _ _ _
    _ = (as.filter (tied le c)).filter p := by rw [filter_tied_mergeSort trans total]
    _ = (as.filter p).filter (tied le c) := List.filter_comm _ _ _
    _ = ((as.filter p).mergeSort le).filter (tied le c) :=
      (filter_tied_mergeSort trans total _ c).symm

end

end DataAccess
