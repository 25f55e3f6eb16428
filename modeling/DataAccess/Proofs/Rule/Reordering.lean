import DataAccess.Proofs.Rule.Meaning
import Mathlib.Data.List.Perm.Basic

/-!
# Reordering of rules

The order in which rules are written decides about nothing but how a compiled rule set is laid out.
Rules in another order compile if they did before, to a tree with the same leaves that holds in the
same cases, and to the very same tree if no two rules have one priority (`compile_reorder`).
-/

namespace DataAccess

namespace CompileScope

variable {k : CompileScope} {rs rs' : List Rule} {root root' : Node}

theorem compiles_unique : Relator.RightUnique k.Compiles :=
  rightUnique_ok fun p => (k.predicate p).result

theorem ruleTree_unique : Relator.RightUnique k.RuleTree := by
  intro r n m hn hm
  obtain ⟨ns, conditions, nested⟩ := hn
  obtain ⟨ms, conditions', nested'⟩ := hm
  rw [List.right_unique_forall₂' compiles_unique conditions conditions'] at nested
  exact nested.unique nested'

/-- Rules compile when some rule has predicates and all predicates compile. -/
theorem rules_succeed_iff :
    (∃ root, (k.rules rs).result = .ok root) ↔
      (∃ r ∈ rs, r.predicates ≠ []) ∧ ∀ r ∈ rs, ∀ p ∈ r.predicates, ∃ n, k.Compiles p n := by
  constructor
  · intro h
    obtain ⟨root, ended⟩ := h
    have tree := tree_of_rules ended
    refine ⟨tree.exists_predicates, ?_⟩
    intro r hr p hp
    exact exists_forall₂_iff.mp ⟨_, tree.leaves⟩ p (List.mem_flatMap.mpr ⟨r, hr, hp⟩)
  · intro h
    obtain ⟨⟨r, hr, nonempty⟩, compiled⟩ := h
    obtain ⟨root, -, ended⟩ : ∃ root, k.Tree rs root ∧ (k.rules rs).result = .ok root := by
      apply rules_of_compiles hr nonempty
      intro p hp
      obtain ⟨r, hr, hp⟩ := List.mem_flatMap.mp hp
      exact compiled r hr p hp
    exact ⟨root, ended⟩

/-- The same rules in another order have the same alternatives. -/
theorem Tree.alternatives_perm (h : k.Tree rs root) (h' : k.Tree rs' root') (perm : rs.Perm rs') :
    ∃ ns ns', ns.Perm ns' ∧ Node.LeftNested .or ns root ∧ Node.LeftNested .or ns' root' := by
  obtain ⟨ns, trees, nested⟩ := h
  obtain ⟨ns', trees', nested'⟩ := h'
  exact ⟨ns, ns', List.rel_perm_imp ruleTree_unique trees trees' (perm.filter _), nested, nested'⟩

end CompileScope

/-- Trees with the same leaves, in some order, that hold in the same cases. -/
structure Node.Equivalent (n m : Node) : Prop where
  holds : ∀ truth : Node → Prop, n.HoldsBy truth ↔ m.HoldsBy truth
  leaves : n.leaves.Perm m.leaves

theorem Node.equivalent_of_alternatives {n m : Node} {ns ms : List Node} (perm : ns.Perm ms)
    (hn : LeftNested .or ns n) (hm : LeftNested .or ms m) : n.Equivalent m where
  holds := by
    intro truth
    rw [hn.holdsBy_iff, hm.holdsBy_iff]
    simp only [perm.mem_iff]
  leaves := by
    rw [hn.leaves .or, hm.leaves .or]
    exact perm.flatMap_right _

namespace RuleSet

section
variable {settings : CompilerSettings} {requester : Requester} {fields : FieldLookup}
  {s t : RuleSet}

theorem ordered_perm_of_perm (perm : s.rules.Perm t.rules) : s.ordered.Perm t.ordered :=
  s.ordered_perm.trans (perm.trans t.ordered_perm.symm)

/-- Rules of different priorities have one order of precedence. -/
theorem ordered_eq_of_perm (perm : s.rules.Perm t.rules)
    (distinct : (s.rules.map Rule.priority).Nodup) : s.ordered = t.ordered := by
  apply List.Perm.eq_of_pairwise _ s.ordered_descending t.ordered_descending
    (ordered_perm_of_perm perm)
  intro a b ha hb le ge
  have ha' : a ∈ s.rules := mem_ordered.mp ha
  have hb' : b ∈ s.rules := perm.mem_iff.mpr (mem_ordered.mp hb)
  exact List.inj_on_of_nodup_map distinct ha' hb' (Int32.le_antisymm ge le)

theorem exists_compile_iff :
    (∃ c, s.compile settings requester fields = .ok c) ↔
      (∃ r ∈ s.rules, r.predicates ≠ []) ∧ ∀ r ∈ s.rules, ∀ p ∈ r.predicates,
        ∃ n, CompileScope.Compiles ⟨settings, requester, fields, s.resource⟩ p n := by
  simp only [← mem_ordered (s := s), ← CompileScope.rules_succeed_iff]
  constructor
  · intro h
    obtain ⟨c, compiled⟩ := h
    exact ⟨c.root, (compile_succeeds_iff.mp ⟨c.explain, compiled⟩).2⟩
  · intro h
    obtain ⟨root, ended⟩ := h
    obtain ⟨log, compiled⟩ := compile_succeeds_iff.mpr ⟨rfl, ended⟩
    exact ⟨_, compiled⟩

theorem compile_eq_of_ordered_eq (resource : s.resource = t.resource)
    (ordered : s.ordered = t.ordered) :
    s.compile settings requester fields = t.compile settings requester fields := by
  unfold compile
  rw [resource, ordered]

end

/-- A rule set compiles whatever the order of its rules, or not at all. Its trees have the same
leaves and hold in the same cases. If no two rules have one priority, the compilation is the same to
the last entry of its log. -/
theorem compile_reorder (settings : CompilerSettings) (requester : Requester)
    (fields : FieldLookup) {s t : RuleSet} (resource : s.resource = t.resource)
    (perm : s.rules.Perm t.rules) :
    ((∃ c, s.compile settings requester fields = .ok c) ↔
        ∃ d, t.compile settings requester fields = .ok d) ∧
      (∀ c d, s.compile settings requester fields = .ok c →
        t.compile settings requester fields = .ok d → c.root.Equivalent d.root) ∧
      ((s.rules.map Rule.priority).Nodup →
        s.compile settings requester fields = t.compile settings requester fields) := by
  refine ⟨?_, ?_, ?_⟩
  · rw [exists_compile_iff, exists_compile_iff, resource]
    simp only [perm.mem_iff]
  · intro c d hc hd
    have tree := tree_of_compile hc
    have tree' := tree_of_compile hd
    rw [resource] at tree
    obtain ⟨ns, ms, same, nested, nested'⟩ :=
      tree.alternatives_perm tree' (ordered_perm_of_perm perm)
    exact Node.equivalent_of_alternatives same nested nested'
  · intro distinct
    exact compile_eq_of_ordered_eq resource (ordered_eq_of_perm perm distinct)

/-- A rule on a single field. -/
def fieldRule (priority : Int32) (field : String) (values : List Value) : Rule :=
  ⟨priority, none, [⟨field, .isIn, values⟩]⟩

theorem compile_reorder_two_rules :
    let fields : FieldLookup := fun _ field => some ⟨none, field⟩
    let own := fieldRule 5 "owner" [.text "$\x7buserId\x7d"]
    let open' := fieldRule 1 "state" [.text "open", .array [.text "new"]]
    let s : RuleSet := ⟨"orders", [own, open']⟩
    let t : RuleSet := ⟨"orders", [open', own]⟩
    s.rules.Perm t.rules ∧ (s.rules.map Rule.priority).Nodup ∧
      s.compile {} (.named "u-1") fields = t.compile {} (.named "u-1") fields := by
  intro fields own open' s t
  have perm : s.rules.Perm t.rules := .swap _ _ []
  have distinct : (s.rules.map Rule.priority).Nodup := by decide
  have same := compile_reorder {} (.named "u-1") fields (s := s) (t := t) rfl perm
  exact ⟨perm, distinct, same.2.2 distinct⟩

end RuleSet

end DataAccess
