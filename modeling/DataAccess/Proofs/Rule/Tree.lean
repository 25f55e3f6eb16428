import DataAccess.Proofs.Success
import DataAccess.Rule.Basic

/-!
# Leaves and truth of trees

A tree has a truth value for each choice of truth values for its leaves, which are counted from left
to right. Nodes that are joined from the left hold together or as alternatives
(`LeftNested.holds_and`, `LeftNested.holds_some`).
-/

namespace DataAccess

namespace Node

/-- The conditions on single columns, from left to right. -/
def leaves : Node → List Node
  | and l r => l.leaves ++ r.leaves
  | or l r => l.leaves ++ r.leaves
  | n => [n]

theorem length_leaves (n : Node) : n.leaves.length = n.leafCount := by
  induction n <;> simp_all [leaves, leafCount]

theorem columns_eq_flatMap_leaves (n : Node) : n.columns = n.leaves.flatMap columns := by
  induction n <;> simp_all [leaves, columns]

theorem leaves_combine (m : CombineMode) (l r : Node) :
    (m.combine l r).leaves = l.leaves ++ r.leaves := by
  cases m <;> rfl

/-- A condition on a single column. -/
def IsLeaf : Node → Prop
  | and _ _ => False
  | or _ _ => False
  | _ => True

theorem leaves_of_isLeaf {n : Node} (h : n.IsLeaf) : n.leaves = [n] := by
  cases n with
  | and | or => cases h
  | _ => rfl

theorem flatMap_leaves_of_isLeaf {ns : List Node} (h : ∀ n ∈ ns, n.IsLeaf) :
    ns.flatMap leaves = ns := by
  induction ns with
  | nil => rfl
  | cons n ns ih =>
    rw [List.forall_mem_cons] at h
    rw [List.flatMap_cons, leaves_of_isLeaf h.1, ih h.2, List.singleton_append]

/-- The truth of a node whose leaves are counted from a number on. -/
def Holds (truth : Nat → Prop) (i : Nat) : Node → Prop
  | and l r => l.Holds truth i ∧ r.Holds truth (i + l.leafCount)
  | or l r => l.Holds truth i ∨ r.Holds truth (i + l.leafCount)
  | _ => truth i

/-- The truth of a node when that of a leaf depends on what the leaf says, and not on where it
stands. -/
def HoldsBy (truth : Node → Prop) : Node → Prop
  | and l r => l.HoldsBy truth ∧ r.HoldsBy truth
  | or l r => l.HoldsBy truth ∨ r.HoldsBy truth
  | n => truth n

/-- Nodes joined from the left. -/
inductive LeftNested (join : Node → Node → Node) : List Node → Node → Prop
  | single (n) : LeftNested join [n] n
  | snoc {ns l} (nested : LeftNested join ns l) (r) : LeftNested join (ns ++ [r]) (join l r)

section
variable {join : Node → Node → Node} {ns : List Node} {n : Node}

theorem LeftNested.foldl (h : LeftNested join ns n) (ms : List Node) :
    LeftNested join (ns ++ ms) (ms.foldl join n) := by
  induction ms generalizing ns n with
  | nil => simpa using h
  | cons m ms ih => simpa using ih (h.snoc m)

theorem joinAll_eq_some_iff : joinAll join ns = some n ↔ LeftNested join ns n := by
  constructor
  · intro h
    cases ns with
    | nil => cases h
    | cons m ms =>
      cases h
      exact (LeftNested.single m).foldl ms
  · intro h
    induction h with
    | single n => rfl
    | @snoc ns l nested r ih =>
      cases ns with
      | nil => cases ih
      | cons m ms =>
        cases ih
        simp [joinAll]

theorem joinAll_eq_none_iff : joinAll join ns = none ↔ ns = [] := by
  cases ns <;> simp [joinAll]

theorem LeftNested.unique {m : Node} (h : LeftNested join ns n) (h' : LeftNested join ns m) :
    n = m := by
  rw [← joinAll_eq_some_iff] at h h'
  exact Option.some.inj (h.symm.trans h')

theorem LeftNested.ne_nil (h : LeftNested join ns n) : ns ≠ [] := by
  cases h <;> simp

theorem LeftNested.leaves (m : CombineMode) (h : LeftNested m.combine ns n) :
    n.leaves = ns.flatMap Node.leaves := by
  induction h with
  | single n => simp
  | snoc nested r ih => simp [leaves_combine, ih]

theorem LeftNested.leafCount (m : CombineMode) (h : LeftNested m.combine ns n) :
    n.leafCount = (ns.flatMap Node.leaves).length := by
  rw [← length_leaves, h.leaves]

end

section
variable {truth : Nat → Prop} {ns : List Node} {n : Node} {i : Nat}

theorem holds_of_isLeaf (h : n.IsLeaf) : n.Holds truth i ↔ truth i := by
  cases n with
  | and | or => cases h
  | _ => exact Iff.rfl

theorem LeftNested.leafCount_of_isLeaf (m : CombineMode) (h : LeftNested m.combine ns n)
    (single : ∀ l ∈ ns, l.IsLeaf) : n.leafCount = ns.length := by
  rw [h.leafCount, flatMap_leaves_of_isLeaf single]

theorem LeftNested.holds_and (h : LeftNested .and ns n) (single : ∀ l ∈ ns, l.IsLeaf) :
    n.Holds truth i ↔ ∀ j < ns.length, truth (i + j) := by
  induction h with
  | single n => simp [holds_of_isLeaf (single n List.mem_cons_self)]
  | @snoc ns l nested r ih =>
    rw [List.forall_mem_append, List.forall_mem_singleton] at single
    have count := nested.leafCount_of_isLeaf .and single.1
    rw [Holds, ih single.1, holds_of_isLeaf single.2, count, List.length_append]
    exact Nat.forall_lt_succ_right.symm

theorem LeftNested.holds_or (h : LeftNested .or ns n) (single : ∀ l ∈ ns, l.IsLeaf) :
    n.Holds truth i ↔ ∃ j < ns.length, truth (i + j) := by
  induction h with
  | single n => simp [holds_of_isLeaf (single n List.mem_cons_self)]
  | @snoc ns l nested r ih =>
    rw [List.forall_mem_append, List.forall_mem_singleton] at single
    have count := nested.leafCount_of_isLeaf .or single.1
    rw [Holds, ih single.1, holds_of_isLeaf single.2, count, List.length_append]
    exact Nat.exists_lt_succ_right.symm

/-- Alternatives hold when one of them does, counted from the leaves before it on. -/
theorem LeftNested.holds_some (h : LeftNested .or ns n) :
    n.Holds truth i ↔ ∃ before m after, ns = before ++ m :: after ∧
      m.Holds truth (i + (before.flatMap Node.leaves).length) := by
  induction h with
  | single n => simp only [exists_split_cons, exists_split_nil, List.flatMap_nil, List.length_nil,
      Nat.add_zero, or_false]
  | snoc nested r ih => rw [Holds, ih, nested.leafCount .or, exists_split_concat]

/-- Alternatives hold when one of them does, in whatever order they come. -/
theorem LeftNested.holdsBy_iff {value : Node → Prop} (h : LeftNested .or ns n) :
    n.HoldsBy value ↔ ∃ m ∈ ns, m.HoldsBy value := by
  induction h with
  | single n => simp
  | snoc nested r ih => simp [HoldsBy, ih, or_and_right, exists_or]

end

end Node

end DataAccess
