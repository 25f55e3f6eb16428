import DataAccess.Proofs.Rule.Operand
import Mathlib.Data.List.TakeWhile

/-!
# Resolution

Operands are read through the arrays in them, from left to right. Reading visits every value that is
not inside a map, with the number of arrays around it. The scalars among these are the result, the
nulls and the values left out are logged, and reading fails at the first visit that is at fault
(`resolveAll_eq`). Whether there is one shows in the nesting of the values and in the maps that
occur in them (`resolveAll_leaves`).
-/

namespace DataAccess

namespace Value

mutual

/-- How deep arrays stand in each other. An empty array counts too, and what is inside a map does
not. -/
def nesting : Value → Nat
  | .array vs => 1 + nestingOfItems vs
  | _ => 0

def nestingOfItems : List Value → Nat
  | [] => 0
  | v :: vs => max (nesting v) (nestingOfItems vs)

end

/-- A value is another one, or stands in the arrays of it. -/
inductive Occurs (w : Value) : Value → Prop where
  | self : Occurs w w
  | item {v vs} (mem : v ∈ vs) (inside : Occurs w v) : Occurs w (.array vs)

theorem occurs_map_array_iff {es : List (String × Value)} {vs : List Value} :
    Occurs (.map es) (.array vs) ↔ ∃ v ∈ vs, Occurs (.map es) v := by
  constructor
  · intro h
    cases h with
    | item mem inside => exact ⟨_, mem, inside⟩
  · rintro ⟨v, mem, inside⟩
    exact .item mem inside

end Value

namespace Operand

/-- What reading operands meets: a value that stands in a number of arrays, or a variable without a
value. -/
inductive Visit where
  | value (depth : Nat) (v : Value)
  | missing (name : String)

mutual

/-- The visits to a value that stands in a number of arrays. An array comes before its items. -/
def visitsOf (depth : Nat) : Value → List Visit
  | .array vs => .value depth (.array vs) :: visitsOfItems (depth + 1) vs
  | v => [.value depth v]

def visitsOfItems (depth : Nat) : List Value → List Visit
  | [] => []
  | v :: vs => visitsOf depth v ++ visitsOfItems depth vs

end

section
variable (s : CompilerSettings)

/-- The value that an operand stands for, or the variable that has none. -/
def resolved (r : Requester) (operand : Value) : Except String Value :=
  match variableName? operand with
  | none => .ok operand
  | some name =>
    match r.lookup s name with
    | some v => .ok v
    | none => .error name

def visits (r : Requester) (operand : Value) : List Visit :=
  match resolved s r operand with
  | .ok v => visitsOf 0 v
  | .error name => [.missing name]

namespace Visit

def scalar? : Visit → Option Value
  | value _ v => if v.IsScalar then some v else none
  | missing _ => none

variable (field : String)

/-- Why reading stops at a visit, if it does. -/
def fault? : Visit → Option CompileFault
  | value depth (.array _) =>
    if s.maxDepth ≤ depth then some (.nestingTooDeep field s.maxDepth) else none
  | value _ (.map _) => if s.strict then some (.mapValue field) else none
  | value _ _ => none
  | missing name => if s.strict then some (.missingVariable name) else none

/-- What a visit adds to the log when reading goes on. -/
def report? : Visit → Option Explain.Entry
  | value _ .null => some ⟨.warn, "null value dropped on field '" ++ field ++ "'"⟩
  | value _ (.map _) => some ⟨.error, (CompileFault.mapValue field).message ++ "; value dropped"⟩
  | value _ _ => none
  | missing name =>
    some ⟨.error, (CompileFault.missingVariable name).message ++ " (field '" ++ field ++
      "'); value dropped"⟩

def take (x : Visit) : Logged CompileFault (List Value) :=
  .attempt (x.fault? s field) (x.report? field) x.scalar?

end Visit

variable (field : String)

mutual

theorem flatten_eq_gather_visits (depth : Nat) (v : Value) :
    flatten s field depth v = .gather (Visit.take s field) (visitsOf depth v) := by
  cases v with
  | array vs =>
    rw [flatten, visitsOf, Logged.gather_cons, Visit.take, Visit.fault?,
      ← flattenItems_eq_gather_visits (depth + 1) vs]
    split
    · rfl
    · exact (bind_pure _).symm
  | map es =>
    refine Eq.trans ?_ (Logged.gather_singleton _ _).symm
    rw [flatten, leaveOut_eq, Visit.take, Visit.fault?]
    cases s.strict <;> rfl
  | _ => exact (Logged.gather_singleton _ _).symm

theorem flattenItems_eq_gather_visits (depth : Nat) (vs : List Value) :
    flattenItems s field depth vs = .gather (Visit.take s field) (visitsOfItems depth vs) := by
  cases vs with
  | nil => rfl
  | cons v vs =>
    rw [flattenItems, visitsOfItems, Logged.gather_append, flatten_eq_gather_visits depth v,
      flattenItems_eq_gather_visits depth vs]

end

theorem resolve_eq_gather_visits (r : Requester) (operand : Value) :
    resolve s field r operand = .gather (Visit.take s field) (visits s r operand) := by
  rw [resolve, visits, resolved]
  cases variableName? operand with
  | none => exact flatten_eq_gather_visits s field 0 operand
  | some name =>
    dsimp only
    cases r.lookup s name with
    | some v => exact flatten_eq_gather_visits s field 0 v
    | none =>
      dsimp only
      rw [Logged.gather_singleton, leaveOut_eq, Visit.take, Visit.fault?]
      cases s.strict <;> rfl

theorem resolveAll_eq_gather_visits (r : Requester) (operands : List Value) :
    resolveAll s field r operands =
      .gather (Visit.take s field) (operands.flatMap (visits s r)) := by
  rw [Logged.gather_flatMap, ← funext (resolve_eq_gather_visits s field r)]
  rfl

/-- Reading ends at the first visit that is at fault. What the visits before it log is kept. -/
theorem resolveAll_eq (r : Requester) (operands : List Value) :
    resolveAll s field r operands =
      ⟨((operands.flatMap (visits s r)).takeWhile fun x => (x.fault? s field).isNone).filterMap
          (Visit.report? field),
        ((operands.flatMap (visits s r)).findSome? (Visit.fault? s field)).elim
          (.ok ((operands.flatMap (visits s r)).filterMap Visit.scalar?)) .error⟩ := by
  rw [resolveAll_eq_gather_visits]
  exact Logged.gather_attempt _ _ _ _

mutual

/-- Values are read without a fault when they are not nested too deep and, strictly, hold no map. -/
theorem forall_visitsOf_iff (depth : Nat) (v : Value) :
    (∀ x ∈ visitsOf depth v, x.fault? s field = none) ↔
      v.nesting ≤ s.maxDepth - depth ∧ (s.strict = true → ∀ es, ¬Value.Occurs (.map es) v) := by
  cases v with
  | array vs =>
    have here : Visit.fault? s field (.value depth (.array vs)) = none ↔ depth < s.maxDepth := by
      simp [Visit.fault?]
    rw [visitsOf, List.forall_mem_cons, here, forall_visitsOfItems_iff (depth + 1) vs,
      Value.nesting]
    simp only [Value.occurs_map_array_iff, not_exists, not_and]
    constructor
    · rintro ⟨room, shallow, mapless⟩
      exact ⟨by omega, fun strict es v mem => mapless strict v mem es⟩
    · rintro ⟨shallow, mapless⟩
      exact ⟨by omega, by omega, fun strict v mem es => mapless strict es v mem⟩
  | map es =>
    have occurs : ∃ fs, Value.Occurs (.map fs) (.map es) := ⟨es, .self⟩
    cases strict : s.strict <;> simp [visitsOf, Visit.fault?, Value.nesting, strict, occurs]
  | _ =>
    refine iff_of_true ?_ ⟨Nat.zero_le _, fun _ es occurs => ?_⟩
    · simp [visitsOf, Visit.fault?]
    · cases occurs

theorem forall_visitsOfItems_iff (depth : Nat) (vs : List Value) :
    (∀ x ∈ visitsOfItems depth vs, x.fault? s field = none) ↔
      Value.nestingOfItems vs ≤ s.maxDepth - depth ∧
        (s.strict = true → ∀ v ∈ vs, ∀ es, ¬Value.Occurs (.map es) v) := by
  cases vs with
  | nil => simp [visitsOfItems, Value.nestingOfItems]
  | cons v vs =>
    simp only [visitsOfItems, List.forall_mem_append, List.forall_mem_cons, Value.nestingOfItems,
      Nat.max_le, forall_visitsOf_iff depth v, forall_visitsOfItems_iff depth vs]
    constructor
    · rintro ⟨⟨shallow, mapless⟩, shallows, maplesses⟩
      exact ⟨⟨shallow, shallows⟩, fun strict => ⟨mapless strict, maplesses strict⟩⟩
    · rintro ⟨⟨shallow, shallows⟩, mapless⟩
      exact ⟨⟨shallow, fun strict => (mapless strict).1⟩, shallows,
        fun strict => (mapless strict).2⟩

end

theorem forall_visits_iff (r : Requester) (operand : Value) :
    (∀ x ∈ visits s r operand, x.fault? s field = none) ↔
      (∀ v, resolved s r operand = .ok v →
        v.nesting ≤ s.maxDepth ∧ (s.strict = true → ∀ es, ¬Value.Occurs (.map es) v)) ∧
      (s.strict = true → ∃ v, resolved s r operand = .ok v) := by
  rw [visits]
  cases resolved s r operand with
  | ok v => simp [forall_visitsOf_iff s field 0]
  | error name => simp [Visit.fault?]

theorem exists_resolveAll_iff (r : Requester) (operands : List Value) :
    (∃ vs, (resolveAll s field r operands).result = .ok vs) ↔
      ∀ operand ∈ operands, ∀ x ∈ visits s r operand, x.fault? s field = none := by
  have clean : (∃ vs, (resolveAll s field r operands).result = .ok vs) ↔
      (operands.flatMap (visits s r)).findSome? (Visit.fault? s field) = none := by
    rw [resolveAll_eq]
    cases (operands.flatMap (visits s r)).findSome? (Visit.fault? s field) <;> simp
  rw [clean, List.findSome?_eq_none_iff, List.forall_mem_flatMap]

theorem reads_lenient_iff (lenient : s.strict = false) (r : Requester) (operands : List Value) :
    (∃ vs, (resolveAll s field r operands).result = .ok vs) ↔
      ∀ operand ∈ operands, ∀ v, resolved s r operand = .ok v → v.nesting ≤ s.maxDepth := by
  rw [exists_resolveAll_iff]
  simp [forall_visits_iff, lenient]

theorem reads_strict_iff (strict : s.strict = true) (r : Requester) (operands : List Value) :
    (∃ vs, (resolveAll s field r operands).result = .ok vs) ↔
      ∀ operand ∈ operands, ∃ v, resolved s r operand = .ok v ∧ v.nesting ≤ s.maxDepth ∧
        ∀ es, ¬Value.Occurs (.map es) v := by
  rw [exists_resolveAll_iff]
  apply forall₂_congr
  intro operand _
  rw [forall_visits_iff]
  simp only [strict, forall_const]
  constructor
  · rintro ⟨each, v, resolved⟩
    exact ⟨v, resolved, each v resolved⟩
  · rintro ⟨v, resolved, fits⟩
    refine ⟨?_, v, resolved⟩
    intro w same
    rw [resolved] at same
    cases same
    exact fits

section
variable {s field} {r : Requester} {operands : List Value}

theorem resolveAll_eq_error_iff {fault : CompileFault} :
    (resolveAll s field r operands).result = .error fault ↔
      (operands.flatMap (visits s r)).findSome? (Visit.fault? s field) = some fault := by
  rw [resolveAll_eq]
  cases (operands.flatMap (visits s r)).findSome? (Visit.fault? s field) <;> simp

/-- When reading gets to the end, no visit is at fault and all are logged. -/
theorem scalars_of_resolveAll {vs : List Value}
    (succeeded : (resolveAll s field r operands).result = .ok vs) :
    vs = (operands.flatMap (visits s r)).filterMap Visit.scalar? ∧
      (resolveAll s field r operands).log =
        (operands.flatMap (visits s r)).filterMap (Visit.report? field) := by
  have eq := resolveAll_eq s field r operands
  cases found : (operands.flatMap (visits s r)).findSome? (Visit.fault? s field) with
  | some fault =>
    rw [resolveAll_eq_error_iff.mpr found] at succeeded
    cases succeeded
  | none =>
    have clean : ∀ x ∈ operands.flatMap (visits s r), (x.fault? s field).isNone = true := by
      intro x hx
      rw [List.findSome?_eq_none_iff.mp found x hx]
      rfl
    rw [found, List.takeWhile_eq_self_iff.mpr clean] at eq
    rw [eq] at succeeded
    cases succeeded
    exact ⟨rfl, congrArg Logged.log eq⟩

end

/-- Operands come to the scalars of the values that they stand for, from left to right. When
lenient, this fails only where a value is nested too deep; when strict, also where a variable has no
value and where a map occurs in a value. The log has an entry for each null, each map and each
variable without a value, in the same order, and the fault is that of the first visit which has
one. -/
theorem resolveAll_leaves (r : Requester) (operands : List Value) :
    let met := operands.flatMap (visits s r)
    let read := resolveAll s field r operands
    (s.strict = false → ((∃ vs, read.result = .ok vs) ↔
      ∀ operand ∈ operands, ∀ v, resolved s r operand = .ok v → v.nesting ≤ s.maxDepth)) ∧
    (s.strict = true → ((∃ vs, read.result = .ok vs) ↔
      ∀ operand ∈ operands, ∃ v, resolved s r operand = .ok v ∧ v.nesting ≤ s.maxDepth ∧
        ∀ es, ¬Value.Occurs (.map es) v)) ∧
    (∀ vs, read.result = .ok vs →
      vs = met.filterMap Visit.scalar? ∧ read.log = met.filterMap (Visit.report? field)) ∧
    ∀ fault, read.result = .error fault ↔ met.findSome? (Visit.fault? s field) = some fault := by
  intro met read
  refine ⟨?lenient, ?strict, ?success, ?failure⟩
  case lenient => exact fun lenient => reads_lenient_iff s field lenient r operands
  case strict => exact fun strict => reads_strict_iff s field strict r operands
  case success => exact fun _ => scalars_of_resolveAll
  case failure => exact fun _ => resolveAll_eq_error_iff

end

end Operand

end DataAccess
