import DataAccess.Proofs.Rule.Meaning

/-!
# Well-formed trees

Every leaf of a compiled tree compares the registered column of its predicate with literals that fit
the operator. Nulls, maps and arrays never reach a literal (`compile_wellFormed`).
-/

namespace DataAccess

namespace Sql.Expr

def IsNumber : Expr → Prop
  | literal (.int _) => True
  | literal (.float _) => True
  | _ => False

def IsText : Expr → Prop
  | literal (.text _) => True
  | _ => False

/-- A literal, and a finite one if it is a float. -/
structure IsValue (e : Expr) : Prop where
  literal : e.isLiteral = true
  finite : ∀ x, e = .literal (.float x) → x.isFinite = true

end Sql.Expr

/-- A leaf on the column that was found for its field, with operands that fit its operator. -/
def Node.WellFormed (found : Option Column) : Node → Prop
  | eq c value => found = some c ∧ value.IsValue
  | isIn c values => found = some c ∧ values ≠ [] ∧ ∀ v ∈ values, v.IsValue
  | between c low high => found = some c ∧ low.IsValue ∧ high.IsValue ∧
      (low.IsNumber ∧ high.IsNumber ∨ low.IsText ∧ high.IsText)
  | like c pattern => found = some c ∧ pattern ≠ "" ∧ isSafePattern pattern.toList
  | _ => False

namespace Value

variable {o : Operator} {v low high : Value} {l h : Sql.Literal}

theorem isValue_of_literal (literal : v.literal o = .ok l) : (Sql.Expr.literal l).IsValue := by
  refine ⟨rfl, ?_⟩
  rintro x ⟨⟩
  cases v with
  | float y =>
    rw [Value.literal] at literal
    split at literal <;> cases literal
    assumption
  | _ => cases literal

theorem isNumber_of_literal (number : v.isNumber) (literal : v.literal o = .ok l) :
    (Sql.Expr.literal l).IsNumber := by
  cases v with
  | int n =>
    cases literal
    trivial
  | float x =>
    rw [Value.literal] at literal
    split at literal <;> cases literal
    trivial
  | _ => cases number

theorem isText_of_literal (text : v.isTextOrTemporal) (literal : v.literal o = .ok l) :
    (Sql.Expr.literal l).IsText := by
  cases v with
  | text | temporal =>
    cases literal
    trivial
  | _ => cases text

theorem literals_of_bounds (bounds : low.bounds high) (lower : low.literal o = .ok l)
    (upper : high.literal o = .ok h) :
    (Sql.Expr.literal l).IsNumber ∧ (Sql.Expr.literal h).IsNumber ∨
      (Sql.Expr.literal l).IsText ∧ (Sql.Expr.literal h).IsText := by
  rw [Value.bounds, Bool.or_eq_true, Bool.and_eq_true, Bool.and_eq_true] at bounds
  rcases bounds with ⟨first, second⟩ | ⟨first, second⟩
  · exact .inl ⟨isNumber_of_literal first lower, isNumber_of_literal second upper⟩
  · exact .inr ⟨isText_of_literal first lower, isText_of_literal second upper⟩

/-- The only scalars that are no literals are infinite and undefined floats. -/
theorem fault_of_literal (scalar : v.IsScalar) {fault : CompileFault}
    (literal : v.literal o = .error fault) : fault = .unsupportedLiteral o .nonFiniteFloat := by
  cases v with
  | null | array | map => exact absurd scalar (by simp [IsScalar, kind])
  | float x =>
    rw [Value.literal] at literal
    split at literal <;> cases literal
    rfl
  | _ => cases literal

end Value

/-- A fault of a null, a map or an array that is taken for a literal. -/
def CompileFault.OfNoScalar : CompileFault → Prop
  | nullValue _ => True
  | unsupportedLiteral _ (.kind k) => k ∈ [.null, .map, .array]
  | _ => False

namespace Predicate

variable {field : String} {c : Column} {o : Operator} {vs : List Value} {n : Node}

theorem MakesLeaf.wellFormed (h : MakesLeaf c o vs n) : n.WellFormed (some c) := by
  cases h with
  | eq literal => exact ⟨rfl, Value.isValue_of_literal literal⟩
  | @isIn _ ls present literals =>
    rw [mapM_eq_ok_iff] at literals
    refine ⟨rfl, ?_, ?_⟩
    · rw [ne_eq, List.map_eq_nil_iff, ← List.length_eq_zero_iff, ← literals.length_eq,
        List.length_eq_zero_iff]
      exact present
    · rw [List.forall_mem_map]
      intro l hl
      obtain ⟨v, literal⟩ := exists_forall₂_iff.1 ⟨vs, literals.flip⟩ l hl
      exact Value.isValue_of_literal literal
  | between bounds lower upper =>
    exact ⟨rfl, Value.isValue_of_literal lower, Value.isValue_of_literal upper,
      Value.literals_of_bounds bounds lower upper⟩
  | like present safe => exact ⟨rfl, present, safe⟩

theorem not_ofNoScalar_of_literal {v : Value} (scalar : v.IsScalar) {fault : CompileFault}
    (h : v.literal o = .error fault) : ¬fault.OfNoScalar := by
  rw [Value.fault_of_literal scalar h]
  exact id

/-- Scalars never make a leaf fail as nulls, maps and arrays would. -/
theorem not_ofNoScalar_of_leaf (scalar : ∀ v ∈ vs, v.IsScalar) {fault : CompileFault}
    (h : leaf field c o vs = .error fault) : ¬fault.OfNoScalar := by
  unfold leaf at h
  split at h
  · rename_i v
    rcases bind_eq_error_iff.1 h with failed | ⟨l, -, ended⟩
    · exact not_ofNoScalar_of_literal (scalar v (by simp)) failed
    · cases ended
  · rcases bind_eq_error_iff.1 h with failed | ⟨l, -, ended⟩
    · obtain ⟨before, v, after, eq, -, failed⟩ := mapM_eq_error_iff.1 failed
      exact not_ofNoScalar_of_literal (scalar v (by simp [eq])) failed
    · cases ended
  · rename_i low high
    split at h
    · rcases bind_eq_error_iff.1 h with failed | ⟨l, -, h⟩
      · exact not_ofNoScalar_of_literal (scalar low (by simp)) failed
      · rcases bind_eq_error_iff.1 h with failed | ⟨u, -, ended⟩
        · exact not_ofNoScalar_of_literal (scalar high (by simp)) failed
        · cases ended
    · cases h
      exact id
  · rename_i v
    split at h
    · split at h
      · cases h
        exact id
      · split at h <;> cases h
        exact id
    · cases h
      exact scalar v (by simp)
  · cases h
    exact id

end Predicate

theorem Operand.Part.not_ofNoScalar {s : CompilerSettings} {field : String} {part : Part}
    {fault : CompileFault} (h : part.fault? s field = some fault) : ¬fault.OfNoScalar := by
  cases part with
  | scalar | null => cases h
  | tooDeep =>
    cases h
    exact id
  | map | missing =>
    rw [fault?, Option.ite_none_right_eq_some] at h
    obtain ⟨-, ⟨⟩⟩ := h
    exact id

namespace CompileScope

variable {k : CompileScope} {p : Predicate}

theorem Compiles.wellFormed {n : Node} (h : k.Compiles p n) :
    n.WellFormed (k.fields k.resource p.field) := by
  obtain ⟨c, found, vs, -, leaf⟩ := compiles_iff.1 h
  rw [found]
  exact leaf.wellFormed

theorem not_ofNoScalar_of_predicate {fault : CompileFault}
    (h : (k.predicate p).result = .error fault) : ¬fault.OfNoScalar := by
  rw [result_predicate] at h
  rcases bind_eq_error_iff.1 h with failed | ⟨c, -, h⟩
  · rw [column] at failed
    split at failed <;> cases failed
    exact id
  · rcases bind_eq_error_iff.1 h with failed | ⟨vs, resolved, failed⟩
    · obtain ⟨part, stops⟩ := Operand.fault_of_resolveAll failed
      exact part.not_ofNoScalar stops
    · exact Predicate.not_ofNoScalar_of_leaf (Operand.isScalar_of_resolveAll resolved) failed

end CompileScope

/-- Every leaf of a compiled tree is well-formed, and no compilation fails because a null, a map or
an array is taken for a literal. -/
theorem RuleSet.compile_wellFormed (settings : CompilerSettings) (requester : Requester)
    (fields : FieldLookup) (s : RuleSet) :
    (∀ c, s.compile settings requester fields = .ok c →
        List.Forall₂ (fun p n => n.WellFormed (fields s.resource p.field))
          (s.ordered.flatMap Rule.predicates) c.root.leaves) ∧
      ∀ e, s.compile settings requester fields = .error e →
        (∀ o, e.fault ≠ .nullValue o) ∧
          ∀ o kind, kind ∈ [Value.Kind.null, .map, .array] →
            e.fault ≠ .unsupportedLiteral o (.kind kind) := by
  constructor
  · intro c h
    exact (tree_of_compile h).leaves.imp fun _ _ h => h.wellFormed
  · intro e h
    have reachable : ¬e.fault.OfNoScalar := by
      rcases fault_of_compile h with eq | eq | ⟨p, -, failed⟩
      · rw [eq]
        exact id
      · rw [eq]
        exact id
      · exact CompileScope.not_ofNoScalar_of_predicate failed
    constructor
    · intro o eq
      rw [eq] at reachable
      exact reachable trivial
    · intro o kind hkind eq
      rw [eq] at reachable
      exact reachable hkind

end DataAccess
