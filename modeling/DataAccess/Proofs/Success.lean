import Mathlib.Data.List.Forall2

/-!
# Success

A chain of steps that may fail succeeds exactly when each step does.
-/

namespace DataAccess

variable {α β ε : Type}

@[simp] theorem bind_eq_ok_iff {x : Except ε α} {f : α → Except ε β} {b : β} :
    x >>= f = .ok b ↔ ∃ a, x = .ok a ∧ f a = .ok b := by
  cases x <;> simp [bind, Except.bind]

theorem bind_eq_error_iff {x : Except ε α} {f : α → Except ε β} {e : ε} :
    x >>= f = .error e ↔ x = .error e ∨ ∃ a, x = .ok a ∧ f a = .error e := by
  cases x <;> simp [bind, Except.bind]

@[simp] theorem map_eq_ok_iff {x : Except ε α} {f : α → β} {b : β} :
    x.map f = .ok b ↔ ∃ a, x = .ok a ∧ f a = b := by
  cases x <;> simp [Except.map]

@[simp] theorem map_eq_error_iff {x : Except ε α} {f : α → β} {e : ε} :
    x.map f = .error e ↔ x = .error e := by
  cases x <;> simp [Except.map]

theorem map_map {γ : Type} (x : Except ε α) (f : α → β) (g : β → γ) :
    (x.map f).map g = x.map fun a => g (f a) := by
  cases x <;> rfl

@[simp] theorem pure_eq_ok_iff {a b : α} : (pure a : Except ε α) = .ok b ↔ a = b := by
  simp [pure, Except.pure]

/-- A step ends with one value at most. -/
theorem rightUnique_ok (f : α → Except ε β) : Relator.RightUnique fun a b => f a = .ok b := by
  intro a b c hb hc
  exact Except.ok.inj (hb.symm.trans hc)

theorem mapM_eq_ok_iff {f : α → Except ε β} {as : List α} {bs : List β} :
    as.mapM f = .ok bs ↔ List.Forall₂ (fun a b => f a = .ok b) as bs := by
  induction as generalizing bs with
  | nil =>
    rw [List.mapM_nil, pure_eq_ok_iff, List.forall₂_nil_left_iff]
    exact eq_comm
  | cons a as ih =>
    rw [List.mapM_cons, List.forall₂_cons_left_iff]
    simp only [bind_eq_ok_iff, pure_eq_ok_iff, ih, eq_comm (a := bs), exists_and_left]

theorem exists_forall₂_iff {R : α → β → Prop} {as : List α} :
    (∃ bs, List.Forall₂ R as bs) ↔ ∀ a ∈ as, ∃ b, R a b := by
  induction as with
  | nil => simp
  | cons a as ih =>
    rw [List.forall_mem_cons, ← ih]
    constructor
    · rintro ⟨_, _ | ⟨ha, has⟩⟩
      exact ⟨⟨_, ha⟩, _, has⟩
    · rintro ⟨⟨b, ha⟩, bs, has⟩
      exact ⟨b :: bs, .cons ha has⟩

/-- A list is split at its first element or later. -/
theorem exists_split_cons {P : List α → α → Prop} {a : α} {as : List α} :
    (∃ before b after, a :: as = before ++ b :: after ∧ P before b) ↔
      P [] a ∨ ∃ before b after, as = before ++ b :: after ∧ P (a :: before) b := by
  constructor
  · rintro ⟨before, b, after, eq, h⟩
    cases before with
    | nil =>
      cases eq
      exact .inl h
    | cons c before =>
      cases eq
      exact .inr ⟨before, b, after, rfl, h⟩
  · rintro (h | ⟨before, b, after, rfl, h⟩)
    · exact ⟨[], a, as, rfl, h⟩
    · exact ⟨a :: before, b, after, rfl, h⟩

theorem exists_split_nil {P : List α → α → Prop} :
    ¬∃ before b after, [] = before ++ b :: after ∧ P before b := by
  simp

/-- A list is split at its last element or earlier. -/
theorem exists_split_concat {P : List α → α → Prop} {as : List α} {a : α} :
    (∃ before b after, as ++ [a] = before ++ b :: after ∧ P before b) ↔
      (∃ before b after, as = before ++ b :: after ∧ P before b) ∨ P as a := by
  induction as generalizing P with
  | nil => simp only [List.nil_append, exists_split_cons, exists_split_nil, or_comm]
  | cons c as ih => rw [List.cons_append, exists_split_cons, ih, exists_split_cons, or_assoc]

/-- Steps fail as the first one of them that does. -/
theorem mapM_eq_error_iff {f : α → Except ε β} {as : List α} {e : ε} :
    as.mapM f = .error e ↔ ∃ before a after, as = before ++ a :: after ∧
      (∀ b ∈ before, ∃ c, f b = .ok c) ∧ f a = .error e := by
  induction as with
  | nil => simp [pure, Except.pure]
  | cons a as ih =>
    rw [List.mapM_cons, exists_split_cons]
    cases h : f a with
    | error e' => simp [bind, Except.bind, h]
    | ok c =>
      cases hs : as.mapM f with
      | error e' =>
        rw [hs] at ih
        simp [bind, Except.bind, h, ih]
      | ok cs =>
        rw [hs] at ih
        simpa [bind, Except.bind, h, pure, Except.pure] using ih

/-- A step that succeeds hands its value on. -/
theorem bind_eq_of_some {x : Option α} {f : α → Option β} {a : α} {r : Option β} (h : x = some a)
    (rest : f a = r) : x >>= f = r := by
  rw [h]
  exact rest

theorem mapM_eq_some_iff {f : α → Option β} {as : List α} {bs : List β} :
    as.mapM f = some bs ↔ List.Forall₂ (fun a b => f a = some b) as bs := by
  induction as generalizing bs with
  | nil => simp [eq_comm]
  | cons a as ih =>
    rw [List.mapM_cons, List.forall₂_cons_left_iff]
    simp only [Option.bind_eq_bind, Option.bind_eq_some_iff, Option.pure_def, Option.some.injEq, ih,
      eq_comm (a := bs), exists_and_left]

theorem exists_mapM_eq_some_iff {f : α → Option β} {as : List α} :
    (∃ bs, as.mapM f = some bs) ↔ ∀ a ∈ as, (f a).isSome := by
  simp only [mapM_eq_some_iff, exists_forall₂_iff, Option.isSome_iff_exists]

end DataAccess
