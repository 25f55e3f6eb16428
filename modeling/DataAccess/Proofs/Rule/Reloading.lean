import DataAccess.Proofs.Document.Reading
import DataAccess.Proofs.Rule.Meaning
import DataAccess.Proofs.Value.Reloading

/-!
# Rules that were stored

A rule set that compiles has no maps and no infinite floats among its operands, so that JSON changes
its temporal values only. Their texts make the same literals, and the rules read back from JSON
compile to the same tree with the same log (`compile_reloaded`).
-/

namespace DataAccess

namespace Value

variable {v w v' w' : Value} {o : Operator}

theorem Reloads.bounds_eq (h : v.Reloads w) (h' : v'.Reloads w') : w.bounds w' = v.bounds v' := by
  unfold bounds
  rw [h.isNumber_eq, h'.isNumber_eq, h.isTextOrTemporal_eq, h'.isTextOrTemporal_eq]

/-- The text of a temporal value is the literal that it makes itself. -/
theorem Reloads.literal (h : v.Reloads w) {l : Sql.Literal} (literal : v.literal o = .ok l) :
    w.literal o = .ok l := by
  cases h with
  | same => exact literal
  | stored =>
    cases v with
    | array => cases literal
    | _ => exact literal

theorem mapM_literal_reloads {vs ws : List Value} (values : List.Forall₂ Reloads vs ws)
    {ls : List Sql.Literal} (literals : vs.mapM (Value.literal o) = .ok ls) :
    ws.mapM (Value.literal o) = .ok ls := by
  rw [mapM_eq_ok_iff] at literals ⊢
  induction values generalizing ls with
  | nil => exact literals
  | cons value _ ih =>
    obtain _ | ⟨here, rest⟩ := literals
    exact .cons (value.literal here) (ih rest)

end Value

theorem Predicate.MakesLeaf.reloads {c : Column} {o : Operator} {vs ws : List Value} {n : Node}
    (h : MakesLeaf c o vs n) (values : List.Forall₂ Value.Reloads vs ws) : MakesLeaf c o ws n := by
  cases h with
  | eq literal =>
    obtain _ | ⟨value, ⟨⟩⟩ := values
    exact .eq (value.literal literal)
  | isIn present literals =>
    refine .isIn ?_ (Value.mapM_literal_reloads values literals)
    intro empty
    rw [empty, List.forall₂_nil_right_iff] at values
    exact present values
  | between bounds lower upper =>
    obtain _ | ⟨low, _ | ⟨high, ⟨⟩⟩⟩ := values
    refine .between ?_ (low.literal lower) (high.literal upper)
    rw [low.bounds_eq high, bounds]
  | like present safe =>
    obtain _ | ⟨value, ⟨⟩⟩ := values
    rw [value.eq_of_text]
    exact .like present safe

/-- All operands of a leaf make literals. -/
theorem Predicate.MakesLeaf.exists_literal {c : Column} {o : Operator} {vs : List Value} {n : Node}
    (h : MakesLeaf c o vs n) : ∀ v ∈ vs, ∃ o l, v.literal o = .ok l := by
  cases h with
  | eq literal =>
    rw [List.forall_mem_singleton]
    exact ⟨_, _, literal⟩
  | isIn present literals =>
    intro v hv
    obtain ⟨l, literal⟩ := exists_forall₂_iff.mp ⟨_, mapM_eq_ok_iff.mp literals⟩ v hv
    exact ⟨_, l, literal⟩
  | between bounds lower upper =>
    rw [List.forall_mem_cons, List.forall_mem_singleton]
    exact ⟨⟨_, _, lower⟩, _, _, upper⟩
  | like present safe =>
    rw [List.forall_mem_singleton]
    exact ⟨.like, _, rfl⟩

namespace Operand

/-- The parts of a value beside what they may be after it was stored. -/
inductive Part.Reloads : Part → Part → Prop
  | same (p) : Reloads p p
  | stored (v) : Reloads (.scalar v) (.scalar v.reloaded)

theorem variableName?_reloaded (v : Value) : variableName? v.reloaded = variableName? v := by
  cases v with
  | temporal t => exact Template.soleName?_text t
  | _ => rfl

mutual

theorem partsOf_reloaded (maxDepth depth : Nat) (v : Value) :
    List.Forall₂ Part.Reloads (partsOf maxDepth depth v) (partsOf maxDepth depth v.reloaded) := by
  cases v with
  | array vs =>
    rw [Value.reloaded, partsOf, partsOf]
    split
    · exact .cons (.same _) .nil
    · exact partsOfItems_reloaded maxDepth (depth + 1) vs
  | null | map => exact .cons (.same _) .nil
  | _ => exact .cons (.stored _) .nil

theorem partsOfItems_reloaded (maxDepth depth : Nat) (vs : List Value) :
    List.Forall₂ Part.Reloads (partsOfItems maxDepth depth vs)
      (partsOfItems maxDepth depth (Value.reloadedItems vs)) := by
  cases vs with
  | nil => exact .nil
  | cons v vs =>
    rw [Value.reloadedItems, partsOfItems, partsOfItems]
    exact List.rel_append (partsOf_reloaded maxDepth depth v)
      (partsOfItems_reloaded maxDepth depth vs)

end

section
variable (s : CompilerSettings)

theorem parts_reloaded (r : Requester) (v : Value) :
    List.Forall₂ Part.Reloads (parts s r v) (parts s r v.reloaded) := by
  rw [parts, parts, variableName?_reloaded]
  cases variableName? v with
  | none => exact partsOf_reloaded s.maxDepth 0 v
  | some name => exact List.forall₂_same.mpr fun p _ => .same p

variable (field : String)

theorem take_reloads {p q : Part} (h : p.Reloads q) :
    Logged.Parallel (List.Forall₂ Value.Reloads) (take s field p) (take s field q) := by
  cases h with
  | same =>
    apply Logged.Parallel.self
    intro vs
    exact List.forall₂_same.mpr fun v _ => .same v
  | stored v => exact .pure (.cons (.stored v) .nil)

/-- Stored operands are read with the same log, and keep the same values or their texts. -/
theorem resolveAll_reloads (r : Requester) (vs : List Value) :
    Logged.Parallel (List.Forall₂ Value.Reloads) (resolveAll s field r vs)
      (resolveAll s field r (vs.map Value.reloaded)) := by
  rw [resolveAll_eq_gather, resolveAll_eq_gather, List.flatMap_map]
  apply Logged.Parallel.gather (R := Part.Reloads)
  · apply List.rel_flatMap (List.forall₂_same.mpr fun v _ => (rfl : v = v))
    rintro v _ rfl
    exact parts_reloaded s r v
  · intro p q h
    exact take_reloads s field h

end

/-- Parts that an operand may have where it becomes part of a leaf. -/
def Part.HasLiteral : Part → Prop
  | scalar v => ∃ o l, v.literal o = .ok l
  | null => True
  | _ => False

mutual

/-- A value that literals are made of is stored with its temporal values changed only. -/
theorem storable_of_partsOf {maxDepth depth : Nat} {v : Value} (free : ¬v.HasConstant)
    (literals : ∀ p ∈ partsOf maxDepth depth v, p.HasLiteral) : v.Storable := by
  cases v with
  | null => exact .null
  | bool b => exact .bool b
  | int n => exact .int n
  | text s => exact .text s
  | temporal t => exact .temporal t
  | enum name => exact absurd (.here name) free
  | map es => exact (literals .map List.mem_cons_self).elim
  | float x =>
    obtain ⟨o, l, literal⟩ := literals (.scalar (.float x)) List.mem_cons_self
    rw [Value.literal] at literal
    split at literal
    · rename_i finite
      exact .float finite
    · cases literal
  | array vs =>
    rw [partsOf] at literals
    split at literals
    · exact (literals .tooDeep List.mem_cons_self).elim
    · exact .array (storable_of_partsOfItems (fun v hv h => free (.item hv h)) literals)

theorem storable_of_partsOfItems {maxDepth depth : Nat} {vs : List Value}
    (free : ∀ v ∈ vs, ¬v.HasConstant)
    (literals : ∀ p ∈ partsOfItems maxDepth depth vs, p.HasLiteral) : ∀ v ∈ vs, v.Storable := by
  cases vs with
  | nil => exact List.forall_mem_nil _
  | cons v vs =>
    rw [partsOfItems, List.forall_mem_append] at literals
    rw [List.forall_mem_cons] at free ⊢
    exact ⟨storable_of_partsOf free.1 literals.1, storable_of_partsOfItems free.2 literals.2⟩

end

/-- A strict reading that ends with literals meets nothing but these and nulls. -/
theorem hasLiteral_of_resolveAll {s : CompilerSettings} (strict : s.strict = true) {field : String}
    {r : Requester} {operands vs : List Value}
    (resolved : (resolveAll s field r operands).result = .ok vs)
    (literals : ∀ v ∈ vs, ∃ o l, v.literal o = .ok l) :
    ∀ p ∈ operands.flatMap (parts s r), p.HasLiteral := by
  have kept := resolveAll_eq_ok resolved
  rw [result_resolveAll] at resolved
  intro p hp
  split at resolved
  · cases resolved
  · rename_i faultless
    have faultless := List.findSome?_eq_none_iff.mp faultless p hp
    cases p with
    | scalar v =>
      apply literals v
      rw [kept]
      exact List.mem_filterMap.mpr ⟨_, hp, rfl⟩
    | null => trivial
    | map | missing => simp [Part.fault?, strict] at faultless
    | tooDeep => cases faultless

end Operand

/-! ## Rules with their temporal operands as texts -/

def Predicate.reloaded (p : Predicate) : Predicate :=
  { p with values := p.values.map Value.reloaded }

def Rule.reloaded (r : Rule) : Rule := { r with predicates := r.predicates.map Predicate.reloaded }

def RuleSet.reloaded (s : RuleSet) : RuleSet := { s with rules := s.rules.map Rule.reloaded }

theorem RuleSet.ordered_reloaded (s : RuleSet) :
    s.reloaded.ordered = s.ordered.map Rule.reloaded := by
  apply Eq.symm
  apply List.map_mergeSort
  intro a _ b _
  rfl

namespace CompileScope

variable {k : CompileScope} {p : Predicate} {n : Node}

theorem predicate_reloaded (h : k.Compiles p n) : k.predicate p.reloaded = k.predicate p := by
  obtain ⟨c, found, vs, resolved, leaf⟩ := compiles_iff.mp h
  obtain ⟨log, result⟩ :=
    Operand.resolveAll_reloads k.settings p.field k.requester p.values
  obtain ⟨ws, resolved', values⟩ := result.exists_of_ok resolved
  rw [predicate_eq found resolved leaf, log]
  exact predicate_eq (p := p.reloaded) found resolved' (leaf.reloads values)

theorem rule_reloaded {r : Rule} (h : ∀ p ∈ r.predicates, ∃ n, k.Compiles p n) :
    k.rule r.reloaded = k.rule r := by
  have nodes : Logged.each k.predicate r.reloaded.predicates =
      Logged.each k.predicate r.predicates := by
    rw [Rule.reloaded, Logged.each_map]
    apply Logged.each_congr
    intro p hp
    obtain ⟨n, compiles⟩ := h p hp
    exact predicate_reloaded compiles
  have count : r.reloaded.predicates.length = r.predicates.length := List.length_map ..
  unfold rule
  rw [nodes, count]
  rfl

theorem rules_reloaded {rs : List Rule} (h : ∀ r ∈ rs, ∀ p ∈ r.predicates, ∃ n, k.Compiles p n) :
    k.rules (rs.map Rule.reloaded) = k.rules rs := by
  unfold rules
  rw [List.isEmpty_map, Logged.each_map, Logged.each_congr]
  intro r hr
  exact rule_reloaded (h r hr)

/-- The operands of a strict predicate that compiles, and has no constants, are storable. -/
theorem storable_of_compiles (strict : k.settings.strict = true)
    (free : ∀ v ∈ p.values, ¬v.HasConstant) (h : k.Compiles p n) : ∀ v ∈ p.values, v.Storable := by
  obtain ⟨c, -, vs, resolved, leaf⟩ := compiles_iff.mp h
  intro v hv
  cases stands : Operand.variableName? v with
  | some name =>
    cases v with
    | text s => exact .text s
    | _ => cases stands
  | none =>
    have literals : ∀ part ∈ Operand.partsOf k.settings.maxDepth 0 v, part.HasLiteral := by
      intro part hpart
      apply Operand.hasLiteral_of_resolveAll strict resolved leaf.exists_literal
      refine List.mem_flatMap.mpr ⟨v, hv, ?_⟩
      rw [Operand.parts, stands]
      exact hpart
    exact Operand.storable_of_partsOf (free v hv) literals

end CompileScope

/-! ## Rules in documents -/

section
variable {δ : Dialect}

theorem CombineMode.option?_optional (m : Option CombineMode) :
    Document.option? ofDocument? δ (.optional toDocument m) = some m :=
  Document.option?_optional (by simp [toDocument]) (fun m => by cases m <;> rfl) m

theorem Predicate.ofDocument?_toDocument {p : Predicate} (storable : ∀ v ∈ p.values, v.Storable) :
    ofDocument? δ p.toDocument = some p.reloaded := by
  have values := Document.list?_map fun v hv =>
    Value.ofDocument?_toDocument (δ := δ) (storable v hv)
  obtain ⟨field, operator, vs⟩ := p
  have name : Operator.ofDocument? δ operator.toDocument = some operator := by
    cases operator <;> rfl
  simp [toDocument, ofDocument?, Document.fields?, required, defaulted, Entries.get?,
    Document.text?, name, values, reloaded]

theorem Rule.ofDocument?_toDocument {r : Rule}
    (storable : ∀ p ∈ r.predicates, ∀ v ∈ p.values, v.Storable) :
    ofDocument? δ r.toDocument = some r.reloaded := by
  have predicates := Document.list?_map fun p hp =>
    Predicate.ofDocument?_toDocument (δ := δ) (storable p hp)
  simp [toDocument, ofDocument?, Document.fields?, nullable, defaulted, Entries.get?,
    Document.int32?_toInt, CombineMode.option?_optional, predicates, reloaded]

theorem RuleSet.ofDocument?_toDocument {s : RuleSet}
    (storable : ∀ r ∈ s.rules, ∀ p ∈ r.predicates, ∀ v ∈ p.values, v.Storable) :
    ofDocument? δ s.toDocument = some s.reloaded := by
  have rules := Document.list?_map fun r hr =>
    Rule.ofDocument?_toDocument (δ := δ) (storable r hr)
  simp [toDocument, ofDocument?, Document.fields?, required, defaulted, Entries.get?,
    Document.text?, rules, reloaded]

end

namespace RuleSet

variable {settings : CompilerSettings} {requester : Requester} {fields : FieldLookup} {s : RuleSet}

/-- The rule set has a constant among its operands, at whatever depth. -/
def HasConstant (s : RuleSet) : Prop :=
  ∃ r ∈ s.rules, ∃ p ∈ r.predicates, ∃ v ∈ p.values, v.HasConstant

theorem compiles_of_compile {c : Compiled} (h : s.compile settings requester fields = .ok c) :
    ∀ r ∈ s.rules, ∀ p ∈ r.predicates,
      ∃ n, CompileScope.Compiles ⟨settings, requester, fields, s.resource⟩ p n := by
  intro r hr p hp
  have leaves := exists_forall₂_iff.mp ⟨_, (tree_of_compile h).leaves⟩
  exact leaves p (List.mem_flatMap.mpr ⟨r, mem_ordered.mpr hr, hp⟩)

/-- A rule set without constants that compiles under strict settings is read back from its JSON, and
what is read back compiles to the same, the log included. -/
theorem compile_reloaded (strict : settings.strict = true) (free : ¬s.HasConstant) {c : Compiled}
    (h : s.compile settings requester fields = .ok c) :
    ∃ s', ofDocument? .json s.toDocument = some s' ∧
      s'.compile settings requester fields = .ok c := by
  have compiles := compiles_of_compile h
  refine ⟨s.reloaded, ?_, ?_⟩
  · apply ofDocument?_toDocument
    intro r hr p hp
    obtain ⟨n, compiled⟩ := compiles r hr p hp
    apply CompileScope.storable_of_compiles strict _ compiled
    intro v hv constant
    exact free ⟨r, hr, p, hp, v, hv, constant⟩
  · rw [compile_eq_ok_iff] at h ⊢
    rw [ordered_reloaded, CompileScope.rules_reloaded]
    · exact h
    · intro r hr
      exact compiles r (mem_ordered.mp hr)

/-- A range whose lower bound is a date, and whose upper bound is a text in an array with a null. -/
theorem compile_reloaded_date_bound :
    let fields : FieldLookup := fun _ field => some ⟨none, field⟩
    let s : RuleSet := ⟨"orders", [⟨0, none, [⟨"placed", .between,
      [.temporal (.date ⟨2024, 1, 1, by decide⟩), .array [.null, .text "2024-12-31"]]⟩]⟩]⟩
    let c : Compiled := ⟨"orders", .between ⟨none, "placed"⟩ (.literal (.text "2024-01-01"))
        (.literal (.text "2024-12-31")),
      [⟨.warn, "null value dropped on field 'placed'"⟩,
        ⟨.info, "BETWEEN on field 'placed' compiled"⟩,
        ⟨.info, "rule priority 0 compiled: 1 predicate(s) joined by AND"⟩]⟩
    ¬s.HasConstant ∧ s.compile {} .anonymous fields = .ok c ∧
      ∃ s', ofDocument? .json s.toDocument = some s' ∧
        s'.compile {} .anonymous fields = .ok c := by
  intro fields s c
  have free : ¬s.HasConstant := by
    rintro ⟨r, hr, p, hp, v, hv, constant⟩
    obtain rfl := List.mem_singleton.mp hr
    obtain rfl := List.mem_singleton.mp hp
    rcases List.mem_pair.mp hv with rfl | rfl
    · cases constant
    · obtain _ | ⟨hw, constant⟩ := constant
      rcases List.mem_pair.mp hw with rfl | rfl <;> cases constant
  have compiled : s.compile {} .anonymous fields = .ok c := by
    have ordered : s.ordered = s.rules := List.mergeSort_singleton ..
    rw [compile_eq_ok_iff, ordered]
    exact ⟨rfl, rfl⟩
  exact ⟨free, compiled, compile_reloaded rfl free compiled⟩

end RuleSet

end DataAccess
