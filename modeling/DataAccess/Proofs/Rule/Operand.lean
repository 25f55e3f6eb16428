import DataAccess.Proofs.Logged
import DataAccess.Rule.Operand

/-!
# Parts of operands

Reading an operand meets its parts in order: scalars, nulls, maps, arrays that lie too deep and
variables without a value. What is kept of an operand, what is logged and where reading stops follow
from the parts alone (`resolveAll_eq_gather`).
-/

namespace DataAccess

/-- A value that is neither null nor made of other values. -/
def Value.IsScalar (v : Value) : Prop := v.kind ∉ [.null, .map, .array]

instance (v : Value) : Decidable v.IsScalar :=
  inferInstanceAs (Decidable (v.kind ∉ [.null, .map, .array]))

namespace Operand

inductive Part where
  | scalar (v : Value)
  | null
  | map
  | tooDeep
  | missing (name : String)

def Part.scalar? : Part → Option Value
  | scalar v => some v
  | _ => none

mutual

/-- The parts of a value that stands in a number of arrays. -/
def partsOf (maxDepth depth : Nat) : Value → List Part
  | .null => [.null]
  | .map _ => [.map]
  | .array vs => if maxDepth ≤ depth then [.tooDeep] else partsOfItems maxDepth (depth + 1) vs
  | v => [.scalar v]

def partsOfItems (maxDepth depth : Nat) : List Value → List Part
  | [] => []
  | v :: vs => partsOf maxDepth depth v ++ partsOfItems maxDepth depth vs

end

section
variable (s : CompilerSettings)

/-- The parts of what an operand stands for. -/
def parts (r : Requester) (operand : Value) : List Part :=
  match variableName? operand with
  | none => partsOf s.maxDepth 0 operand
  | some name =>
    match r.lookup s name with
    | some v => partsOf s.maxDepth 0 v
    | none => [.missing name]

variable (field : String)

/-- What one part adds to the operands of a predicate. -/
def take : Part → Logged CompileFault (List Value)
  | .scalar v => return [v]
  | .null => flatten s field 0 .null
  | .map => flatten s field 0 (.map [])
  | .tooDeep => .fail (.nestingTooDeep field s.maxDepth)
  | .missing name =>
    leaveOut s (.missingVariable name)
      ((CompileFault.missingVariable name).message ++ " (field '" ++ field ++ "'); value dropped")

mutual

theorem flatten_eq_gather (depth : Nat) (v : Value) :
    flatten s field depth v = .gather (take s field) (partsOf s.maxDepth depth v) := by
  cases v with
  | array vs =>
    rw [flatten, partsOf]
    split
    · exact (Logged.gather_singleton _ _).symm
    · exact flattenItems_eq_gather (depth + 1) vs
  | _ => exact (Logged.gather_singleton _ _).symm

theorem flattenItems_eq_gather (depth : Nat) (vs : List Value) :
    flattenItems s field depth vs = .gather (take s field) (partsOfItems s.maxDepth depth vs) := by
  cases vs with
  | nil => rfl
  | cons v vs =>
    rw [flattenItems, partsOfItems, Logged.gather_append, flatten_eq_gather depth v,
      flattenItems_eq_gather depth vs]

end

theorem resolve_eq_gather (r : Requester) (operand : Value) :
    resolve s field r operand = .gather (take s field) (parts s r operand) := by
  rw [resolve, parts]
  cases variableName? operand with
  | none => exact flatten_eq_gather s field 0 operand
  | some name =>
    dsimp only
    cases r.lookup s name with
    | some v => exact flatten_eq_gather s field 0 v
    | none => exact (Logged.gather_singleton (take s field) (.missing name)).symm

theorem resolveAll_eq_gather (r : Requester) (operands : List Value) :
    resolveAll s field r operands = .gather (take s field) (operands.flatMap (parts s r)) := by
  rw [Logged.gather_flatMap, ← funext (resolve_eq_gather s field r)]
  rfl

/-- Why reading stops at a part, if it does. -/
def Part.fault? : Part → Option CompileFault
  | scalar _ => none
  | null => none
  | map => if s.strict then some (.mapValue field) else none
  | tooDeep => some (.nestingTooDeep field s.maxDepth)
  | missing name => if s.strict then some (.missingVariable name) else none

theorem leaveOut_eq (fault : CompileFault) (message : String) :
    leaveOut s fault message =
      if s.strict then .fail fault else ⟨[⟨.error, message⟩], .ok []⟩ := by
  rw [leaveOut]
  split <;> rfl

theorem result_take (p : Part) :
    (take s field p).result =
      match p.fault? s field with
      | some fault => .error fault
      | none => .ok p.scalar?.toList := by
  cases p with
  | map | missing =>
    simp only [take, flatten, leaveOut_eq, Part.fault?]
    split <;> rfl
  | _ => rfl

/-- Reading stops at the first part with a fault, and else keeps the scalars in order. -/
theorem result_resolveAll (r : Requester) (operands : List Value) :
    (resolveAll s field r operands).result =
      match (operands.flatMap (parts s r)).findSome? (Part.fault? s field) with
      | some fault => .error fault
      | none => .ok ((operands.flatMap (parts s r)).filterMap Part.scalar?) := by
  rw [resolveAll_eq_gather]
  induction operands.flatMap (parts s r) with
  | nil => rfl
  | cons p ps ih =>
    rw [Logged.gather_cons, Logged.result_bind, result_take, List.findSome?_cons]
    cases p.fault? s field with
    | some fault => rfl
    | none =>
      simp only [Logged.result_bind, ih]
      cases ps.findSome? (Part.fault? s field) with
      | some fault => rfl
      | none =>
        cases h : p.scalar? <;> simp [h, bind, Except.bind]

end

mutual

theorem isScalar_of_mem_partsOf {maxDepth depth : Nat} {v w : Value}
    (h : .scalar w ∈ partsOf maxDepth depth v) : w.IsScalar := by
  cases v with
  | array vs =>
    rw [partsOf] at h
    split at h
    · simp at h
    · exact isScalar_of_mem_partsOfItems h
  | null | map => simp [partsOf] at h
  | _ =>
    simp only [partsOf, List.mem_singleton, Part.scalar.injEq] at h
    subst h
    simp [Value.IsScalar, Value.kind]

theorem isScalar_of_mem_partsOfItems {maxDepth depth : Nat} {vs : List Value} {w : Value}
    (h : .scalar w ∈ partsOfItems maxDepth depth vs) : w.IsScalar := by
  cases vs with
  | nil => simp [partsOfItems] at h
  | cons v vs =>
    rw [partsOfItems, List.mem_append] at h
    exact h.elim isScalar_of_mem_partsOf isScalar_of_mem_partsOfItems

end

section
variable {s : CompilerSettings} {field : String} {r : Requester} {operands vs : List Value}

theorem isScalar_of_mem_parts {operand w : Value} (h : .scalar w ∈ parts s r operand) :
    w.IsScalar := by
  rw [parts] at h
  split at h
  · exact isScalar_of_mem_partsOf h
  · split at h
    · exact isScalar_of_mem_partsOf h
    · simp at h

theorem resolveAll_eq_ok (h : (resolveAll s field r operands).result = .ok vs) :
    vs = (operands.flatMap (parts s r)).filterMap Part.scalar? := by
  rw [result_resolveAll] at h
  split at h
  · cases h
  · cases h
    rfl

theorem fault_of_resolveAll {fault : CompileFault}
    (h : (resolveAll s field r operands).result = .error fault) :
    ∃ p : Part, p.fault? s field = some fault := by
  rw [result_resolveAll] at h
  split at h
  · rename_i found
    cases h
    obtain ⟨p, -, stops⟩ := List.exists_of_findSome?_eq_some found
    exact ⟨p, stops⟩
  · cases h

theorem isScalar_of_resolveAll (h : (resolveAll s field r operands).result = .ok vs) :
    ∀ v ∈ vs, v.IsScalar := by
  intro v hv
  rw [resolveAll_eq_ok h, List.mem_filterMap] at hv
  obtain ⟨p, hp, eq⟩ := hv
  obtain ⟨operand, -, hp⟩ := List.mem_flatMap.1 hp
  cases p with
  | scalar w =>
    cases eq
    exact isScalar_of_mem_parts hp
  | _ => cases eq

end

end Operand

end DataAccess
