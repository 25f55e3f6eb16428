import DataAccess.Proofs.Rule.Operand
import DataAccess.Proofs.Rule.Tree
import DataAccess.Rule.Compile

/-!
# Leaves of predicates

A predicate that compiles becomes one leaf, on the column of its field.
-/

namespace DataAccess

/-- The leaf that an operator makes of operands on a column. -/
inductive Predicate.MakesLeaf (c : Column) : Operator → List Value → Node → Prop
  | eq {v l} (literal : Value.literal .eq v = .ok l) : MakesLeaf c .eq [v] (.eq c (.literal l))
  | isIn {vs ls} (present : vs ≠ []) (literals : vs.mapM (Value.literal .isIn) = .ok ls) :
      MakesLeaf c .isIn vs (.isIn c (ls.map .literal))
  | between {low high l h} (bounds : low.bounds high) (lower : low.literal .between = .ok l)
      (upper : high.literal .between = .ok h) :
      MakesLeaf c .between [low, high] (.between c (.literal l) (.literal h))
  | like {pattern : String} (present : pattern ≠ "") (safe : isSafePattern pattern.toList) :
      MakesLeaf c .like [.text pattern] (.like c pattern)

namespace Predicate

variable {field : String} {c : Column} {o : Operator} {vs : List Value} {n : Node}

theorem leaf_eq_ok_iff : leaf field c o vs = .ok n ↔ MakesLeaf c o vs n := by
  constructor
  · intro h
    unfold leaf at h
    split at h
    · simp only [bind_eq_ok_iff, pure_eq_ok_iff] at h
      obtain ⟨l, literal, rfl⟩ := h
      exact .eq literal
    · simp only [bind_eq_ok_iff, pure_eq_ok_iff] at h
      obtain ⟨ls, literals, rfl⟩ := h
      exact .isIn (List.cons_ne_nil _ _) literals
    · split at h
      · rename_i bounds
        simp only [bind_eq_ok_iff, pure_eq_ok_iff] at h
        obtain ⟨l, lower, u, upper, rfl⟩ := h
        exact .between bounds lower upper
      · cases h
    · split at h
      · split at h
        · cases h
        · rename_i present
          split at h
          · rename_i safe
            cases h
            exact .like present safe
          · cases h
      · cases h
    · cases h
  · intro h
    cases h with
    | eq literal => simp [leaf, literal]
    | @isIn vs ls present literals =>
      cases vs with
      | nil => exact absurd rfl present
      | cons v vs => rw [leaf, literals]; rfl
    | between bounds lower upper => simp [leaf, bounds, lower, upper]
    | like present safe => simp [leaf, present, safe]

theorem MakesLeaf.isLeaf (h : MakesLeaf c o vs n) : n.IsLeaf := by
  cases h <;> trivial

theorem MakesLeaf.columns (h : MakesLeaf c o vs n) : n.columns = [c] := by
  cases h <;> rfl

end Predicate

namespace CompileScope

variable (k : CompileScope)

/-- A predicate compiles to a condition. -/
def Compiles (p : Predicate) (n : Node) : Prop := (k.predicate p).result = .ok n

variable {k} {p : Predicate} {n : Node}

theorem column_eq_ok_iff {field : String} {c : Column} :
    k.column field = .ok c ↔ k.fields k.resource field = some c := by
  rw [column]
  split <;> simp_all

theorem result_predicate (p : Predicate) :
    (k.predicate p).result = k.column p.field >>= fun c =>
      (Operand.resolveAll k.settings p.field k.requester p.values).result >>= fun vs =>
        Predicate.leaf p.field c p.operator vs := by
  rw [predicate]
  simp only [Logged.result_bind]
  exact bind_congr fun c => bind_congr fun vs => bind_pure _

theorem compiles_iff : k.Compiles p n ↔
    ∃ c, k.fields k.resource p.field = some c ∧
      ∃ vs, (Operand.resolveAll k.settings p.field k.requester p.values).result = .ok vs ∧
        Predicate.MakesLeaf c p.operator vs n := by
  simp only [Compiles, result_predicate, bind_eq_ok_iff, column_eq_ok_iff,
    Predicate.leaf_eq_ok_iff]

theorem predicate_eq {c : Column} {vs : List Value} (found : k.fields k.resource p.field = some c)
    (resolved : (Operand.resolveAll k.settings p.field k.requester p.values).result = .ok vs)
    (leaf : Predicate.MakesLeaf c p.operator vs n) :
    k.predicate p =
      ⟨(Operand.resolveAll k.settings p.field k.requester p.values).log ++
        [⟨.info, p.operator.name ++ " on field '" ++ p.field ++ "' compiled"⟩], .ok n⟩ := by
  rw [predicate, Logged.bind_ok (column_eq_ok_iff.mpr found), Logged.bind_ok resolved,
    Logged.bind_ok (Predicate.leaf_eq_ok_iff.mpr leaf)]
  rfl

end CompileScope

end DataAccess
