import DataAccess.Proofs.Rule.Leaf
import DataAccess.Proofs.Rule.Precedence

/-!
# Meaning of rules

Compiling a rule set either stops at its first predicate that does not compile, in the order of
precedence, or makes the disjunction of its rules, each of which joins its predicates by its mode
(`compile_meaning`).
-/

namespace DataAccess

/-- Whether a rule holds when its predicates are counted from a number on: with some of them if it
says so, and else with all. -/
def Rule.Holds (truth : Nat → Prop) (i : Nat) (r : Rule) : Prop :=
  match r.combine with
  | some .or => ∃ j < r.predicates.length, truth (i + j)
  | some .and | none => ∀ j < r.predicates.length, truth (i + j)

namespace CompileScope

variable (k : CompileScope)

/-- A tree that joins the conditions of a rule from the left, by its mode. -/
def RuleTree (r : Rule) (n : Node) : Prop :=
  ∃ conditions, List.Forall₂ k.Compiles r.predicates conditions ∧
    Node.LeftNested r.mode.combine conditions n

/-- A tree that joins the rules with predicates from the left, as alternatives. -/
def Tree (rs : List Rule) (root : Node) : Prop :=
  ∃ alternatives, List.Forall₂ k.RuleTree (rs.filter (·.predicates ≠ [])) alternatives ∧
    Node.LeftNested .or alternatives root

/-! ## How compilation ends -/

theorem result_rule (r : Rule) :
    (k.rule r).result = r.predicates.mapM (fun p => (k.predicate p).result) >>= fun ns =>
      .ok (Node.joinAll r.mode.combine ns) := by
  rw [rule, Logged.result_bind, Logged.result_each]
  apply bind_congr
  intro ns
  cases Node.joinAll r.mode.combine ns <;> rfl

variable {k}

theorem result_rule_eq_ok_iff {r : Rule} {o : Option Node} :
    (k.rule r).result = .ok o ↔
      ∃ ns, List.Forall₂ k.Compiles r.predicates ns ∧ Node.joinAll r.mode.combine ns = o := by
  simp only [result_rule, bind_eq_ok_iff, mapM_eq_ok_iff, Except.ok.injEq]
  rfl

theorem result_rule_eq_error_iff {r : Rule} {fault : CompileFault} :
    (k.rule r).result = .error fault ↔
      r.predicates.mapM (fun p => (k.predicate p).result) = .error fault := by
  rw [result_rule]
  cases r.predicates.mapM fun p => (k.predicate p).result <;> simp [bind, Except.bind]

theorem result_rules {rs : List Rule} (present : rs ≠ []) :
    (k.rules rs).result = rs.mapM (fun r => (k.rule r).result) >>= fun os =>
      match Node.joinAll .or (os.filterMap id) with
      | some root => .ok root
      | none => .error (.noValidExpression k.resource) := by
  have : rs.isEmpty = false := by simpa using present
  rw [rules, this, if_neg Bool.false_ne_true, Logged.result_bind, Logged.result_each]
  apply bind_congr
  intro os
  cases Node.joinAll .or (os.filterMap id) <;> rfl

/-- Rules without predicates leave no alternative. -/
theorem forall₂_ruleTree {rs : List Rule} {os : List (Option Node)}
    (h : List.Forall₂ (fun r o => (k.rule r).result = .ok o) rs os) :
    List.Forall₂ k.RuleTree (rs.filter (·.predicates ≠ [])) (os.filterMap id) := by
  induction h with
  | nil => exact .nil
  | @cons r o rs os here _ ih =>
    obtain ⟨ns, conditions, joined⟩ := result_rule_eq_ok_iff.1 here
    cases o with
    | none =>
      rw [Node.joinAll_eq_none_iff] at joined
      subst joined
      have empty := List.forall₂_nil_right_iff.1 conditions
      rw [List.filter_cons_of_neg (by simp [empty])]
      exact ih
    | some n =>
      have nested := Node.joinAll_eq_some_iff.1 joined
      have present : r.predicates ≠ [] := by
        intro empty
        rw [empty, List.forall₂_nil_left_iff] at conditions
        subst conditions
        cases joined
      rw [List.filter_cons_of_pos (by simp [present])]
      exact .cons ⟨ns, conditions, nested⟩ ih

theorem mapM_result_rule_eq_error {rs : List Rule} {fault : CompileFault}
    (h : rs.mapM (fun r => (k.rule r).result) = .error fault) :
    (rs.flatMap Rule.predicates).mapM (fun p => (k.predicate p).result) = .error fault := by
  obtain ⟨before, r, after, rfl, compiled, failed⟩ := mapM_eq_error_iff.1 h
  obtain ⟨compiled', p, after', eq, here, failed⟩ :=
    mapM_eq_error_iff.1 (result_rule_eq_error_iff.1 failed)
  rw [mapM_eq_error_iff]
  refine ⟨before.flatMap Rule.predicates ++ compiled', p,
    after' ++ after.flatMap Rule.predicates, ?_, ?_, failed⟩
  · simp [eq]
  · intro q hq
    rcases List.mem_append.1 hq with hq | hq
    · obtain ⟨r', hr', hq⟩ := List.mem_flatMap.1 hq
      obtain ⟨o, ho⟩ := compiled r' hr'
      obtain ⟨ns, conditions, -⟩ := result_rule_eq_ok_iff.1 ho
      exact exists_forall₂_iff.1 ⟨ns, conditions⟩ q hq
    · exact here q hq

/-- The ends of a compilation: the first fault of a predicate, no predicates at all, or a tree. -/
theorem rules_cases {rs : List Rule} (present : rs ≠ []) :
    (∃ fault, (rs.flatMap Rule.predicates).mapM (fun p => (k.predicate p).result) = .error fault ∧
        (k.rules rs).result = .error fault) ∨
      ((∀ r ∈ rs, r.predicates = []) ∧
        (k.rules rs).result = .error (.noValidExpression k.resource)) ∨
      ∃ root, k.Tree rs root ∧ (k.rules rs).result = .ok root := by
  have ended := result_rules (k := k) present
  cases h : rs.mapM fun r => (k.rule r).result with
  | error fault =>
    rw [h] at ended
    exact .inl ⟨fault, mapM_result_rule_eq_error h, ended⟩
  | ok os =>
    have trees := forall₂_ruleTree (mapM_eq_ok_iff.1 h)
    cases joined : Node.joinAll .or (os.filterMap id) with
    | some root =>
      simp only [h, bind, Except.bind, joined] at ended
      exact .inr (.inr ⟨root, ⟨_, trees, Node.joinAll_eq_some_iff.1 joined⟩, ended⟩)
    | none =>
      simp only [h, bind, Except.bind, joined] at ended
      rw [Node.joinAll_eq_none_iff.1 joined, List.forall₂_nil_right_iff] at trees
      exact .inr (.inl ⟨by simpa using trees, ended⟩)

theorem tree_of_rules {rs : List Rule} {root : Node} (h : (k.rules rs).result = .ok root) :
    k.Tree rs root := by
  have present : rs ≠ [] := by
    rintro rfl
    cases h
  rcases rules_cases (k := k) present with ⟨fault, -, ended⟩ | ⟨-, ended⟩ | ⟨root', tree, ended⟩ <;>
    rw [ended] at h <;> cases h
  exact tree

theorem fault_of_rules {rs : List Rule} {fault : CompileFault}
    (h : (k.rules rs).result = .error fault) :
    fault = .emptyRuleSet k.resource ∨ fault = .noValidExpression k.resource ∨
      ∃ p ∈ rs.flatMap Rule.predicates, (k.predicate p).result = .error fault := by
  by_cases empty : rs = []
  · subst empty
    cases h
    exact .inl rfl
  · rcases rules_cases (k := k) empty with ⟨fault, first, ended⟩ | ⟨-, ended⟩ | ⟨root, -, ended⟩ <;>
      rw [ended] at h <;> cases h
    · obtain ⟨before, p, after, eq, -, failed⟩ := mapM_eq_error_iff.1 first
      exact .inr (.inr ⟨p, by simp [eq], failed⟩)
    · exact .inr (.inl rfl)

/-! ## What a tree says -/

section
variable {rs : List Rule} {r : Rule} {root n : Node}

theorem Compiles.isLeaf {p : Predicate} (h : k.Compiles p n) : n.IsLeaf := by
  obtain ⟨c, -, vs, -, leaf⟩ := compiles_iff.1 h
  exact leaf.isLeaf

theorem Compiles.columns {p : Predicate} (h : k.Compiles p n) :
    n.columns.map some = [k.fields k.resource p.field] := by
  obtain ⟨c, found, vs, -, leaf⟩ := compiles_iff.1 h
  rw [leaf.columns, found]
  rfl

theorem forall₂_compiles_isLeaf {ps : List Predicate} {ns : List Node}
    (h : List.Forall₂ k.Compiles ps ns) : ∀ n ∈ ns, n.IsLeaf := by
  induction h with
  | nil => simp
  | cons here _ ih => exact List.forall_mem_cons.2 ⟨here.isLeaf, ih⟩

theorem columns_of_forall₂_compiles {ps : List Predicate} {ns : List Node}
    (h : List.Forall₂ k.Compiles ps ns) :
    (ns.flatMap Node.columns).map some = ps.map fun p => k.fields k.resource p.field := by
  induction h with
  | nil => rfl
  | cons here _ ih =>
    rw [List.flatMap_cons, List.map_append, here.columns, ih, List.map_cons,
      List.singleton_append]

theorem RuleTree.leaves (h : k.RuleTree r n) : List.Forall₂ k.Compiles r.predicates n.leaves := by
  obtain ⟨ns, conditions, nested⟩ := h
  rw [nested.leaves, Node.flatMap_leaves_of_isLeaf (forall₂_compiles_isLeaf conditions)]
  exact conditions

theorem RuleTree.holds_iff (h : k.RuleTree r n) {truth : Nat → Prop} {i : Nat} :
    n.Holds truth i ↔ r.Holds truth i := by
  obtain ⟨ns, conditions, nested⟩ := h
  have leaf := forall₂_compiles_isLeaf conditions
  rw [Rule.Holds, conditions.length_eq]
  rw [Rule.mode] at nested
  split
  · rename_i any
    rw [any] at nested
    exact Node.LeftNested.holds_or nested leaf
  · rename_i all
    rw [all] at nested
    exact Node.LeftNested.holds_and nested leaf
  · rename_i absent
    rw [absent] at nested
    exact Node.LeftNested.holds_and nested leaf

theorem flatMap_predicates_filter (rs : List Rule) :
    (rs.filter (·.predicates ≠ [])).flatMap Rule.predicates = rs.flatMap Rule.predicates := by
  induction rs with
  | nil => rfl
  | cons r rs ih => by_cases empty : r.predicates = [] <;> simp_all

/-- The leaves of a tree are the conditions of the predicates, in order. -/
theorem Tree.leaves (h : k.Tree rs root) :
    List.Forall₂ k.Compiles (rs.flatMap Rule.predicates) root.leaves := by
  obtain ⟨ns, trees, nested⟩ := h
  rw [nested.leaves .or]
  rw [← flatMap_predicates_filter]
  exact List.rel_flatMap trees fun _ _ h => h.leaves

theorem forall₂_ruleTree_holds_iff {ns : List Node}
    (h : List.Forall₂ k.RuleTree (rs.filter (·.predicates ≠ [])) ns) {truth : Nat → Prop}
    {i : Nat} :
    (∃ before m after, ns = before ++ m :: after ∧
        m.Holds truth (i + (before.flatMap Node.leaves).length)) ↔
      ∃ before r after, rs = before ++ r :: after ∧
        r.predicates ≠ [] ∧ r.Holds truth (i + (before.flatMap Rule.predicates).length) := by
  induction rs generalizing ns i with
  | nil =>
    cases h
    simp only [exists_split_nil]
  | cons r rs ih =>
    rw [exists_split_cons (P := fun (before : List Rule) (r : Rule) =>
      r.predicates ≠ [] ∧ r.Holds truth (i + (before.flatMap Rule.predicates).length))]
    by_cases empty : r.predicates = []
    · rw [List.filter_cons_of_neg (by simp [empty])] at h
      rw [ih h]
      simp [empty]
    · rw [List.filter_cons_of_pos (by simp [empty])] at h
      cases h with
      | @cons _ n _ ns here rest =>
        rw [exists_split_cons (P := fun (before : List Node) (m : Node) =>
          m.Holds truth (i + (before.flatMap Node.leaves).length))]
        have count := here.leaves.length_eq
        simp only [here.holds_iff, ne_eq, empty, not_false_eq_true, true_and, List.flatMap_nil,
          List.length_nil, Nat.add_zero, List.flatMap_cons, List.length_append, ← count,
          ← Nat.add_assoc, ih rest]

theorem Tree.holds_iff (h : k.Tree rs root) {truth : Nat → Prop} {i : Nat} :
    root.Holds truth i ↔ ∃ before r after, rs = before ++ r :: after ∧
      r.predicates ≠ [] ∧ r.Holds truth (i + (before.flatMap Rule.predicates).length) := by
  obtain ⟨ns, trees, nested⟩ := h
  rw [nested.holds_some, forall₂_ruleTree_holds_iff trees]

theorem Tree.columns (h : k.Tree rs root) :
    root.columns.map some =
      (rs.flatMap Rule.predicates).map fun p => k.fields k.resource p.field := by
  rw [Node.columns_eq_flatMap_leaves]
  exact columns_of_forall₂_compiles h.leaves

theorem Tree.exists_predicates (h : k.Tree rs root) : ∃ r ∈ rs, r.predicates ≠ [] := by
  obtain ⟨ns, trees, nested⟩ := h
  by_contra none
  have empty : rs.filter (·.predicates ≠ []) = [] := by simpa using none
  rw [empty, List.forall₂_nil_left_iff] at trees
  exact nested.ne_nil trees

theorem Tree.leafCount (h : k.Tree rs root) :
    root.leafCount = (rs.flatMap Rule.predicates).length := by
  rw [← Node.length_leaves, h.leaves.length_eq]

end

/-! ## Which end a compilation has -/

section
variable {rs : List Rule}

theorem rules_of_first_fault {before after : List Predicate} {p : Predicate} {fault : CompileFault}
    (eq : rs.flatMap Rule.predicates = before ++ p :: after)
    (compiled : ∀ q ∈ before, ∃ n, k.Compiles q n)
    (failed : (k.predicate p).result = .error fault) : (k.rules rs).result = .error fault := by
  have first := mapM_eq_error_iff.2 ⟨before, p, after, eq, compiled, failed⟩
  have present : rs ≠ [] := by
    rintro rfl
    simp at eq
  rcases k.rules_cases present with ⟨fault', first', ended⟩ | ⟨empty, -⟩ | ⟨root, tree, -⟩
  · rw [first] at first'
    cases first'
    exact ended
  · rw [List.flatMap_eq_nil_iff.2 empty] at eq
    simp at eq
  · rw [mapM_eq_ok_iff.2 tree.leaves] at first
    cases first

theorem rules_of_no_predicates (present : rs ≠ []) (empty : ∀ r ∈ rs, r.predicates = []) :
    (k.rules rs).result = .error (.noValidExpression k.resource) := by
  rcases k.rules_cases present with ⟨fault, first, -⟩ | ⟨-, ended⟩ | ⟨root, tree, -⟩
  · rw [List.flatMap_eq_nil_iff.2 empty] at first
    cases first
  · exact ended
  · obtain ⟨r, hr, some⟩ := tree.exists_predicates
    exact absurd (empty r hr) some

theorem rules_of_compiles {r : Rule} (hr : r ∈ rs) (some : r.predicates ≠ [])
    (compiled : ∀ p ∈ rs.flatMap Rule.predicates, ∃ n, k.Compiles p n) :
    ∃ root, k.Tree rs root ∧ (k.rules rs).result = .ok root := by
  rcases k.rules_cases (List.ne_nil_of_mem hr) with ⟨fault, first, -⟩ | ⟨empty, -⟩ | done
  · obtain ⟨before, p, after, eq, -, failed⟩ := mapM_eq_error_iff.1 first
    obtain ⟨n, hn⟩ := compiled p (by simp [eq])
    rw [Compiles, failed] at hn
    cases hn
  · exact absurd (empty r hr) some
  · exact done

end

end CompileScope

/-- A compiled rule set is the tree of its rules, and holds when one of them does. -/
structure Compiled.Means (c : Compiled) (k : CompileScope) (rs : List Rule) : Prop where
  resource : c.resource = k.resource
  tree : k.Tree rs c.root
  leafCount : c.root.leafCount = (rs.flatMap Rule.predicates).length
  columns : c.root.columns.map some =
    (rs.flatMap Rule.predicates).map fun p => k.fields k.resource p.field
  holds : ∀ truth, c.root.Holds truth 0 ↔ ∃ before r after, rs = before ++ r :: after ∧
    r.predicates ≠ [] ∧ r.Holds truth (before.flatMap Rule.predicates).length

theorem CompileScope.Tree.means {k : CompileScope} {rs : List Rule} {root : Node}
    (h : k.Tree rs root) (log : Explain) : Compiled.Means ⟨k.resource, root, log⟩ k rs where
  resource := rfl
  tree := h
  leafCount := h.leafCount
  columns := h.columns
  holds := by
    intro truth
    simp only [h.holds_iff, Nat.zero_add]

namespace RuleSet

variable {settings : CompilerSettings} {requester : Requester} {fields : FieldLookup} {s : RuleSet}

theorem compile_fails_iff {fault : CompileFault} :
    (∃ log, s.compile settings requester fields = .error ⟨fault, log⟩) ↔
      (CompileScope.rules ⟨settings, requester, fields, s.resource⟩ s.ordered).result =
        .error fault := by
  simp only [compile_eq_error_iff]
  rcases CompileScope.rules _ _ with ⟨log, _ | _⟩ <;> simp

theorem compile_succeeds_iff {resource : String} {root : Node} :
    (∃ log, s.compile settings requester fields = .ok ⟨resource, root, log⟩) ↔
      resource = s.resource ∧
        (CompileScope.rules ⟨settings, requester, fields, s.resource⟩ s.ordered).result =
          .ok root := by
  simp only [compile_eq_ok_iff]
  rcases CompileScope.rules _ _ with ⟨log, _ | _⟩ <;> simp [and_comm]

theorem tree_of_compile {c : Compiled} (h : s.compile settings requester fields = .ok c) :
    CompileScope.Tree ⟨settings, requester, fields, s.resource⟩ s.ordered c.root := by
  obtain ⟨-, ended⟩ := compile_succeeds_iff.1 ⟨c.explain, h⟩
  exact CompileScope.tree_of_rules ended

/-- A compilation fails for want of rules or predicates, or as one of the predicates does. -/
theorem fault_of_compile {e : CompileError} (h : s.compile settings requester fields = .error e) :
    e.fault = .emptyRuleSet s.resource ∨ e.fault = .noValidExpression s.resource ∨
      ∃ p ∈ s.ordered.flatMap Rule.predicates,
        (CompileScope.predicate ⟨settings, requester, fields, s.resource⟩ p).result =
          .error e.fault :=
  CompileScope.fault_of_rules (compile_fails_iff.1 ⟨e.explain, h⟩)

/-- A rule set without rules does not compile. Another one fails as its first predicate that does
not compile, in the order of precedence, or for want of predicates, and else is the tree of its
rules. -/
theorem compile_meaning (settings : CompilerSettings) (requester : Requester)
    (fields : FieldLookup) (s : RuleSet) :
    let k : CompileScope := ⟨settings, requester, fields, s.resource⟩
    (∀ rs, s.Precedence rs ↔ rs = s.ordered) ∧
      (s.rules = [] →
        ∃ log, s.compile settings requester fields = .error ⟨.emptyRuleSet s.resource, log⟩) ∧
      (∀ before p after fault, s.ordered.flatMap Rule.predicates = before ++ p :: after →
        (∀ q ∈ before, ∃ n, k.Compiles q n) → (k.predicate p).result = .error fault →
        ∃ log, s.compile settings requester fields = .error ⟨fault, log⟩) ∧
      (s.rules ≠ [] → (∀ r ∈ s.rules, r.predicates = []) →
        ∃ log, s.compile settings requester fields = .error ⟨.noValidExpression s.resource, log⟩) ∧
      ((∃ r ∈ s.rules, r.predicates ≠ []) →
        (∀ p ∈ s.ordered.flatMap Rule.predicates, ∃ n, k.Compiles p n) →
        ∃ c, s.compile settings requester fields = .ok c ∧ c.Means k s.ordered) := by
  intro k
  refine ⟨fun rs => precedence_iff, ?_, ?_, ?_, ?_⟩
  · intro empty
    rw [compile_fails_iff, ordered_eq_nil_iff.2 empty]
    rfl
  · intro before p after fault eq compiled failed
    rw [compile_fails_iff]
    exact CompileScope.rules_of_first_fault eq compiled failed
  · intro present empty
    rw [compile_fails_iff]
    apply CompileScope.rules_of_no_predicates (ordered_eq_nil_iff.not.2 present)
    intro r hr
    exact empty r (mem_ordered.1 hr)
  · rintro ⟨r, hr, some⟩ compiled
    obtain ⟨root, tree, ended⟩ :=
      CompileScope.rules_of_compiles (mem_ordered.2 hr) some compiled
    obtain ⟨log, eq⟩ := compile_succeeds_iff.2 ⟨rfl, ended⟩
    exact ⟨_, eq, tree.means log⟩

end RuleSet

end DataAccess
