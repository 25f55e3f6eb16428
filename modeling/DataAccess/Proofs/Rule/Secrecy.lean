import DataAccess.Proofs.Rule.Shape
import DataAccess.Proofs.Rule.Variables

/-!
# Secrecy of values

Compilations of rules of one shape for requesters of one shape end alike and keep the same log, so
no error and no log tells of values. The texts that variables stand for are not read as variables
again (`compile_secrecy`).
-/

namespace DataAccess

theorem forall₂_mergeSort {α β : Type} {R : α → β → Prop} {le : α → α → Bool} {le' : β → β → Bool}
    (same : ∀ a b a' b', R a b → R a' b' → le a a' = le' b b') {as : List α} {bs : List β}
    (h : List.Forall₂ R as bs) : List.Forall₂ R (as.mergeSort le) (bs.mergeSort le') := by
  have count := h.length_eq
  -- Both lists are sides of one list of pairs, which is sorted once.
  have left : as.mergeSort le = ((as.zip bs).mergeSort fun p q => le p.1 q.1).map Prod.fst := by
    rw [List.map_mergeSort (s := le) (fun _ _ _ _ => rfl), List.map_fst_zip count.le]
  have right : bs.mergeSort le' = ((as.zip bs).mergeSort fun p q => le p.1 q.1).map Prod.snd := by
    rw [List.map_mergeSort, List.map_snd_zip count.ge]
    intro p hp q hq
    exact same _ _ _ _ (List.forall₂_zip h hp) (List.forall₂_zip h hq)
  rw [left, right, List.forall₂_map_left_iff, List.forall₂_map_right_iff, List.forall₂_same]
  intro p hp
  exact List.forall₂_zip h (List.mem_mergeSort.1 hp)

/-! ## Rules of one shape -/

/-- Predicates that differ in operands of one shape only. -/
structure Predicate.Alike (p q : Predicate) : Prop where
  field : p.field = q.field
  operator : p.operator = q.operator
  values : List.Forall₂ Operand.Alike p.values q.values

structure Rule.Alike (r r' : Rule) : Prop where
  priority : r.priority = r'.priority
  combine : r.combine = r'.combine
  predicates : List.Forall₂ Predicate.Alike r.predicates r'.predicates

structure RuleSet.Alike (s t : RuleSet) : Prop where
  resource : s.resource = t.resource
  rules : List.Forall₂ Rule.Alike s.rules t.rules

/-- Compiled rule sets that differ in their literals and patterns only. -/
structure Compiled.Alike (c d : Compiled) : Prop where
  resource : c.resource = d.resource
  root : c.root.Alike d.root
  explain : c.explain = d.explain

theorem RuleSet.Alike.ordered {s t : RuleSet} (h : s.Alike t) :
    List.Forall₂ Rule.Alike s.ordered t.ordered := by
  apply forall₂_mergeSort _ h.rules
  intro _ _ _ _ h h'
  rw [h.priority, h'.priority]

theorem Node.joinAll_alike {join : Node → Node → Node}
    (step : ∀ l l' r r', l.Alike l' → r.Alike r' → (join l r).Alike (join l' r'))
    {ns ms : List Node} (h : List.Forall₂ Node.Alike ns ms) :
    Option.Rel Node.Alike (joinAll join ns) (joinAll join ms) := by
  cases h with
  | nil => exact .none
  | cons here rest =>
    exact .some (List.rel_foldl (fun l l' left r r' right => step l l' r r' left right) here rest)

theorem CombineMode.combine_alike (m : CombineMode) (l l' r r' : Node) (left : l.Alike l')
    (right : r.Alike r') : (m.combine l r).Alike (m.combine l' r') := by
  cases m with
  | and => exact .and left right
  | or => exact .or left right

open Logged

namespace CompileScope

variable (k : CompileScope)

section
variable {b : Requester} (requesters : k.requester.Alike b)
include requesters

theorem predicate_parallel {p q : Predicate} (h : p.Alike q) :
    Parallel Node.Alike (k.predicate p) ((k.withRequester b).predicate q) := by
  obtain ⟨field, operator, vs⟩ := p
  obtain ⟨_, _, ws⟩ := q
  obtain ⟨⟨⟩, ⟨⟩, values⟩ := h
  apply (Parallel.refl (.lift (k.column field))).bind
  rintro c _ rfl
  apply (Operand.resolveAll_parallel k.settings field requesters values).bind
  intro vs ws values
  apply (Parallel.lift (Predicate.leaf_alike values)).bind
  intro n m nodes
  exact (Parallel.refl (.tell _ _)).bind fun _ _ _ => .pure nodes

theorem rule_parallel {r r' : Rule} (h : r.Alike r') :
    Parallel (Option.Rel Node.Alike) (k.rule r) ((k.withRequester b).rule r') := by
  have count := h.predicates.length_eq
  have mode : r.mode = r'.mode := by rw [Rule.mode, h.combine, Rule.mode]
  unfold rule
  rw [h.priority, count, mode]
  apply (Parallel.each h.predicates fun _ _ h => k.predicate_parallel requesters h).bind
  intro ns ms nodes
  have joined := Node.joinAll_alike r'.mode.combine_alike nodes
  generalize Node.joinAll _ ns = x, Node.joinAll _ ms = y at joined ⊢
  cases joined with
  | none => exact (Parallel.refl (.tell _ _)).bind fun _ _ _ => .pure .none
  | some root => exact (Parallel.refl (.tell _ _)).bind fun _ _ _ => .pure (.some root)

theorem rules_parallel {rs rs' : List Rule} (h : List.Forall₂ Rule.Alike rs rs') :
    Parallel Node.Alike (k.rules rs) ((k.withRequester b).rules rs') := by
  unfold rules
  cases h with
  | nil =>
    rw [if_pos List.isEmpty_nil, if_pos List.isEmpty_nil]
    exact ⟨rfl, .error _⟩
  | cons here rest =>
    apply (Parallel.each (.cons here rest) fun _ _ h => k.rule_parallel requesters h).bind
    intro ns ms nodes
    have joined : Option.Rel Node.Alike (Node.joinAll .or (ns.filterMap id))
        (Node.joinAll .or (ms.filterMap id)) :=
      Node.joinAll_alike CombineMode.or.combine_alike (List.rel_filterMap (fun _ _ h => h) nodes)
    generalize Node.joinAll .or (ns.filterMap id) = x, Node.joinAll .or (ms.filterMap id) = y
      at joined ⊢
    cases joined with
    | none => exact ⟨rfl, .error _⟩
    | some root => exact .pure root

end

end CompileScope

/-- The text of a variable is an operand as it is, whatever it looks like. -/
theorem Operand.resolve_variable (s : CompilerSettings) (field : String) {r : Requester}
    {text name value : String} (stands : Template.soleName? text = some name)
    (found : r.lookup s name = some (.text value)) :
    resolve s field r (.text text) = pure [.text value] := by
  simp only [resolve, variableName?, stands, found]
  rfl

namespace RuleSet

variable (settings : CompilerSettings) (fields : FieldLookup) {s t : RuleSet} {a b : Requester}

theorem compile_endAlike (rules : s.Alike t) (requesters : a.Alike b) :
    EndAlike Compiled.Alike (s.compile settings a fields) (t.compile settings b fields) := by
  have runs : Parallel Node.Alike
      (CompileScope.rules ⟨settings, a, fields, s.resource⟩ s.ordered)
      (CompileScope.rules ⟨settings, b, fields, s.resource⟩ t.ordered) :=
    CompileScope.rules_parallel _ requesters rules.ordered
  unfold compile
  rw [← rules.resource]
  generalize CompileScope.rules _ s.ordered = x, CompileScope.rules _ t.ordered = y at runs ⊢
  obtain ⟨_, rx⟩ := x
  obtain ⟨_, ry⟩ := y
  obtain ⟨⟨⟩, ends⟩ := runs
  cases ends with
  | ok root => exact .ok ⟨rfl, root, rfl⟩
  | error fault => exact .error _

/-- Rules of one shape compile alike for requesters of one shape: both fail with one fault and one
log, or both succeed with one log and with trees that differ in literals and patterns only. No
variables but those of the rules are looked up, and a text found there is an operand as it is. -/
theorem compile_secrecy (rules : s.Alike t) (requesters : a.Alike b) :
    EndAlike Compiled.Alike (s.compile settings a fields) (t.compile settings b fields) ∧
      (∀ c : Requester,
        (∀ name ∈ s.variables, a.lookup settings name = c.lookup settings name) →
        s.compile settings a fields = s.compile settings c fields) ∧
      ∀ field text name value, Template.soleName? text = some name →
        a.lookup settings name = some (.text value) →
        Operand.resolve settings field a (.text text) = pure [.text value] := by
  refine ⟨compile_endAlike settings fields rules requesters, ?_, ?_⟩
  · intro c
    exact compile_congr settings fields
  · intro field text name value
    exact Operand.resolve_variable settings field

theorem compile_secrecy_of_placeholder :
    let fields : FieldLookup := fun _ field => some ⟨none, field⟩
    let rules (pattern : String) : RuleSet := ⟨"orders", [⟨0, none,
      [⟨"owner", .eq, [.text "$\x7buserId\x7d"]⟩,
        ⟨"dept", .isIn, [.text "$\x7bdept\x7d", .array [.int 7, .null]]⟩,
        ⟨"name", .like, [.text pattern]⟩]⟩]⟩
    let requester (id dept : String) : Requester :=
      (Requester.named id).withAttribute "dept" (.text dept)
    let s := rules "a%"
    let a := requester "u-1" "$\x7buserId\x7d"
    let c := a.withAttribute "region" (.text "eu")
    EndAlike Compiled.Alike (s.compile {} a fields)
        ((rules "%b").compile {} (requester "u-2" "north") fields) ∧
      s.compile {} a fields = s.compile {} c fields ∧
      Operand.resolve {} "dept" a (.text "$\x7bdept\x7d") = pure [.text "$\x7buserId\x7d"] := by
  intro fields rules requester s a c
  have same : s.Alike (rules "%b") := by
    refine ⟨rfl, .cons ⟨rfl, rfl, .cons ?_ (.cons ?_ (.cons ?_ .nil))⟩ .nil⟩
    · exact ⟨rfl, rfl, .cons ⟨.text ⟨Iff.rfl, rfl⟩, rfl⟩ .nil⟩
    · refine ⟨rfl, rfl, .cons ⟨.text ⟨Iff.rfl, rfl⟩, rfl⟩ (.cons ⟨?_, rfl⟩ .nil)⟩
      exact .array (.cons (.int 7 7) (.cons .null .nil))
    · exact ⟨rfl, rfl, .cons ⟨.text ⟨by decide, by decide⟩, by decide⟩ .nil⟩
  have requesters : a.Alike (requester "u-2" "north") := by
    apply (Requester.Alike.named ⟨by decide, by decide⟩).withAttribute
    exact .text ⟨by decide, by decide⟩
  have lookups : ∀ name ∈ s.variables, a.lookup {} name = c.lookup {} name := by
    intro name hname
    have other : "region" ≠ name := by
      rintro rfl
      revert hname
      decide
    simp only [Requester.lookup, c, Requester.withAttribute, Dictionary.get?_insert, if_neg other]
  obtain ⟨ends, looked, kept⟩ := compile_secrecy {} fields same requesters
  exact ⟨ends, looked c lookups, kept "dept" _ "dept" _ (by decide) rfl⟩

end RuleSet

end DataAccess
