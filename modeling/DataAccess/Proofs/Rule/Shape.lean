import DataAccess.Proofs.Rule.Leaf

/-!
# Shapes of values

Values have one shape when no diagnostic tells them apart: they are made of the same constructors,
and corresponding texts agree on whether they are empty and on whether they are safe patterns.
Operands of one shape are read alike (`resolveAll_parallel`) and make leaves of one shape
(`leaf_alike`).
-/

namespace DataAccess

/-- Texts that are both empty or not, and both safe patterns or not. -/
structure Text.Alike (a b : String) : Prop where
  empty : a = "" ↔ b = ""
  safe : isSafePattern a.toList = isSafePattern b.toList

/-- Values of one shape. Nothing is asked of what maps hold. -/
inductive Value.Alike : Value → Value → Prop
  | null : Alike .null .null
  | bool (a b) : Alike (.bool a) (.bool b)
  | int (a b) : Alike (.int a) (.int b)
  | float {a b : Float} (finite : a.isFinite = b.isFinite) : Alike (.float a) (.float b)
  | text {a b} (texts : Text.Alike a b) : Alike (.text a) (.text b)
  | enum (a b) : Alike (.enum a) (.enum b)
  | temporal (a b) : Alike (.temporal a) (.temporal b)
  | array {as bs} (items : List.Forall₂ Alike as bs) : Alike (.array as) (.array bs)
  | map (as bs) : Alike (.map as) (.map bs)

/-- Requesters with an id or both without one, and with attributes of one shape. -/
structure Requester.Alike (a b : Requester) : Prop where
  id : Option.Rel Text.Alike a.id b.id
  attributes : ∀ name, Option.Rel Value.Alike (a.attributes.get? name) (b.attributes.get? name)

theorem Requester.Alike.named {a b : String} (texts : Text.Alike a b) :
    (Requester.named a).Alike (.named b) where
  id := .some texts
  attributes _ := .none

theorem Requester.Alike.withAttribute {a b : Requester} (h : a.Alike b) (name : String)
    {v w : Value} (values : v.Alike w) :
    (a.withAttribute name v).Alike (b.withAttribute name w) where
  id := h.id
  attributes other := by
    unfold Requester.withAttribute
    rw [Dictionary.get?_insert, Dictionary.get?_insert]
    split
    · exact .some values
    · exact h.attributes other

theorem Requester.Alike.lookup {a b : Requester} (h : a.Alike b) (s : CompilerSettings)
    (name : String) : Option.Rel Value.Alike (a.lookup s name) (b.lookup s name) := by
  unfold Requester.lookup
  split
  · obtain ⟨a, _⟩ := a
    obtain ⟨b, _⟩ := b
    cases h.id with
    | none => exact .none
    | some texts => exact .some (.text texts)
  · exact h.attributes name

namespace Operand

/-- Operands of one shape that stand for one variable or both for themselves. -/
structure Alike (v w : Value) : Prop where
  values : v.Alike w
  variable_eq : variableName? v = variableName? w

inductive Part.Alike : Part → Part → Prop
  | scalar {v w} (values : v.Alike w) : Alike (.scalar v) (.scalar w)
  | null : Alike .null .null
  | map : Alike .map .map
  | tooDeep : Alike .tooDeep .tooDeep
  | missing (name) : Alike (.missing name) (.missing name)

mutual

theorem partsOf_alike {maxDepth depth : Nat} {v w : Value} (h : v.Alike w) :
    List.Forall₂ Part.Alike (partsOf maxDepth depth v) (partsOf maxDepth depth w) := by
  have values := h
  cases h with
  | null => exact .cons .null .nil
  | map => exact .cons .map .nil
  | array items =>
    rw [partsOf, partsOf]
    split
    · exact .cons .tooDeep .nil
    · exact partsOfItems_alike items
  | _ => exact .cons (.scalar values) .nil

theorem partsOfItems_alike {maxDepth depth : Nat} {vs ws : List Value}
    (h : List.Forall₂ Value.Alike vs ws) :
    List.Forall₂ Part.Alike (partsOfItems maxDepth depth vs) (partsOfItems maxDepth depth ws) := by
  cases h with
  | nil => exact .nil
  | cons here rest =>
    rw [partsOfItems, partsOfItems]
    exact List.rel_append (partsOf_alike here) (partsOfItems_alike rest)

end

variable (s : CompilerSettings) (field : String) {a b : Requester}

theorem parts_alike (requesters : a.Alike b) {v w : Value} (h : Alike v w) :
    List.Forall₂ Part.Alike (parts s a v) (parts s b w) := by
  rw [parts, parts, h.variable_eq]
  cases variableName? w with
  | none => exact partsOf_alike h.values
  | some name =>
    dsimp only
    have found := requesters.lookup s name
    generalize a.lookup s name = x, b.lookup s name = y at found ⊢
    cases found with
    | none => exact .cons (.missing name) .nil
    | some values => exact partsOf_alike values

theorem leaveOut_parallel (fault : CompileFault) (message : String) :
    Logged.Parallel (List.Forall₂ Value.Alike) (leaveOut s fault message)
      (leaveOut s fault message) := by
  unfold leaveOut
  split
  · exact ⟨rfl, .error _⟩
  · exact ⟨rfl, .ok .nil⟩

theorem take_parallel {p q : Part} (h : p.Alike q) :
    Logged.Parallel (List.Forall₂ Value.Alike) (take s field p) (take s field q) := by
  cases h with
  | scalar values => exact .pure (.cons values .nil)
  | null => exact ⟨rfl, .ok .nil⟩
  | map | missing => exact leaveOut_parallel s _ _
  | tooDeep => exact ⟨rfl, .error _⟩

/-- Operands of one shape leave values of one shape and the same log, or stop alike. -/
theorem resolveAll_parallel (requesters : a.Alike b) {vs ws : List Value}
    (h : List.Forall₂ Alike vs ws) :
    Logged.Parallel (List.Forall₂ Value.Alike) (resolveAll s field a vs)
      (resolveAll s field b ws) := by
  rw [resolveAll_eq_gather, resolveAll_eq_gather]
  apply Logged.Parallel.gather (R := Part.Alike)
  · exact List.rel_flatMap h fun _ _ h => parts_alike s requesters h
  · intro p q h
    exact take_parallel s field h

end Operand

inductive Sql.Literal.Alike : Sql.Literal → Sql.Literal → Prop
  | text (a b) : Alike (.text a) (.text b)
  | int (a b) : Alike (.int a) (.int b)
  | float (a b) : Alike (.float a) (.float b)

/-- Expressions that are literals of one kind. -/
inductive Sql.Expr.Alike : Sql.Expr → Sql.Expr → Prop
  | literal {l m} (literals : Sql.Literal.Alike l m) : Alike (.literal l) (.literal m)

/-- Trees that differ in their literals and patterns only. -/
inductive Node.Alike : Node → Node → Prop
  | and {l l' r r'} (left : Alike l l') (right : Alike r r') : Alike (.and l r) (.and l' r')
  | or {l l' r r'} (left : Alike l l') (right : Alike r r') : Alike (.or l r) (.or l' r')
  | eq (c) {x y} (values : Sql.Expr.Alike x y) : Alike (.eq c x) (.eq c y)
  | isIn (c) {xs ys} (values : List.Forall₂ Sql.Expr.Alike xs ys) :
      Alike (.isIn c xs) (.isIn c ys)
  | between (c) {x x' y y'} (lower : Sql.Expr.Alike x x') (upper : Sql.Expr.Alike y y') :
      Alike (.between c x y) (.between c x' y')
  | like (c) (p q) : Alike (.like c p) (.like c q)

namespace Value.Alike

variable {v w : Value}

theorem kind_eq (h : v.Alike w) : v.kind = w.kind := by
  cases h <;> rfl

theorem bounds_eq (h : v.Alike w) {v' w' : Value} (h' : v'.Alike w') :
    v.bounds v' = w.bounds w' := by
  simp only [bounds, isNumber, isTextOrTemporal, h.kind_eq, h'.kind_eq]

theorem literal (h : v.Alike w) (o : Operator) :
    EndAlike Sql.Literal.Alike (v.literal o) (w.literal o) := by
  cases h with
  | null | array | map => exact .error _
  | bool | int => exact .ok (.int _ _)
  | text | enum | temporal => exact .ok (.text _ _)
  | float finite =>
    rw [Value.literal, Value.literal, finite]
    split
    · exact .ok (.float _ _)
    · exact .error _

end Value.Alike

/-- The operator takes so many values. -/
def Operator.Takes : Operator → Nat → Prop
  | isIn, n => 0 < n
  | between, n => n = 2
  | _, n => n = 1

namespace Predicate

variable {field : String} {c : Column} {o : Operator} {vs ws : List Value}

theorem leaf_of_not_takes (h : ¬o.Takes vs.length) :
    leaf field c o vs = .error (.arity o field vs.length) := by
  unfold leaf
  split
  · exact absurd rfl h
  · exact absurd (Nat.succ_pos _) h
  · exact absurd rfl h
  · exact absurd rfl h
  · rfl

theorem leaf_alike (h : List.Forall₂ Value.Alike vs ws) :
    EndAlike Node.Alike (leaf field c o vs) (leaf field c o ws) := by
  have count := h.length_eq
  by_cases takes : o.Takes vs.length
  · cases o with
    | eq =>
      obtain ⟨v, rfl⟩ := List.length_eq_one_iff.1 takes
      obtain _ | ⟨values, ⟨⟩⟩ := h
      exact (values.literal .eq).bind fun _ _ h => .ok (.eq c (.literal h))
    | isIn =>
      cases h with
      | nil => exact .error _
      | cons here rest =>
        apply (EndAlike.mapM (.cons here rest) fun _ _ h => h.literal .isIn).bind
        intro ls ms literals
        exact .ok (.isIn c (List.rel_map (fun _ _ => .literal) literals))
    | between =>
      obtain ⟨low, high, rfl⟩ := List.length_eq_two.1 takes
      obtain _ | ⟨lower, _ | ⟨upper, ⟨⟩⟩⟩ := h
      rw [leaf, leaf, lower.bounds_eq upper, lower.kind_eq, upper.kind_eq]
      split
      · apply (lower.literal .between).bind
        intro _ _ lower
        apply (upper.literal .between).bind
        intro _ _ upper
        exact .ok (.between c (.literal lower) (.literal upper))
      · exact .error _
    | like =>
      obtain ⟨v, rfl⟩ := List.length_eq_one_iff.1 takes
      obtain _ | ⟨values, ⟨⟩⟩ := h
      cases values with
      | text texts =>
        simp only [leaf, texts.empty, texts.safe]
        split
        · exact .error _
        · split
          · exact .ok (.like c _ _)
          · exact .error _
      | _ => exact .error _
  · have takes' := takes
    rw [count] at takes'
    rw [leaf_of_not_takes takes, leaf_of_not_takes takes', count]
    exact .error _

end Predicate

end DataAccess
