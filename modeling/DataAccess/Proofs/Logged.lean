import DataAccess.Logged
import DataAccess.Proofs.Success

/-!
# Runs with a log

How a chain of steps ends does not depend on their logs. Two runs are parallel when they keep the
same log and end alike; parallel steps make parallel runs (`Parallel.bind`, `Parallel.each`).
-/

namespace DataAccess

variable {ε α β γ δ : Type}

/-- Two ends are alike: both are values, and related, or both are the same error. -/
inductive EndAlike (R : α → β → Prop) : Except ε α → Except ε β → Prop
  | ok {a b} (related : R a b) : EndAlike R (.ok a) (.ok b)
  | error (e) : EndAlike R (.error e) (.error e)

namespace EndAlike

variable {R : α → β → Prop} {S : γ → δ → Prop}

theorem self {R : α → α → Prop} (refl : ∀ a, R a a) (x : Except ε α) : EndAlike R x x := by
  cases x with
  | error e => exact .error e
  | ok a => exact .ok (refl a)

theorem refl (x : Except ε α) : EndAlike Eq x x := self (fun _ => rfl) x

theorem map {x : Except ε α} {y : Except ε β} (h : EndAlike R x y) {f : α → γ} {g : β → δ}
    (next : ∀ a b, R a b → S (f a) (g b)) : EndAlike S (x.map f) (y.map g) := by
  cases h with
  | ok related => exact .ok (next _ _ related)
  | error e => exact .error e

theorem exists_ok_iff {x : Except ε α} {y : Except ε β} (h : EndAlike R x y) :
    (∃ a, x = .ok a) ↔ ∃ b, y = .ok b := by
  cases h <;> simp

theorem exists_of_ok {x : Except ε α} {y : Except ε β} (h : EndAlike R x y) {a : α}
    (eq : x = .ok a) : ∃ b, y = .ok b ∧ R a b := by
  cases h with
  | @ok _ b related =>
    cases eq
    exact ⟨b, rfl, related⟩
  | error e => cases eq

theorem eq_error_iff {x : Except ε α} {y : Except ε β} (h : EndAlike R x y) {e : ε} :
    x = .error e ↔ y = .error e := by
  cases h <;> simp

theorem bind {x : Except ε α} {y : Except ε β} (h : EndAlike R x y) {f : α → Except ε γ}
    {g : β → Except ε δ} (next : ∀ a b, R a b → EndAlike S (f a) (g b)) :
    EndAlike S (x >>= f) (y >>= g) := by
  cases h with
  | ok related => exact next _ _ related
  | error e => exact .error e

theorem mapM {f : α → Except ε γ} {g : β → Except ε δ} {as : List α} {bs : List β}
    (related : List.Forall₂ R as bs) (step : ∀ a b, R a b → EndAlike S (f a) (g b)) :
    EndAlike (List.Forall₂ S) (as.mapM f) (bs.mapM g) := by
  induction related with
  | nil => exact .ok .nil
  | cons here _ rest =>
    rw [List.mapM_cons, List.mapM_cons]
    exact (step _ _ here).bind fun _ _ h => rest.bind fun _ _ hs => .ok (.cons h hs)

end EndAlike

namespace Logged

theorem ext {x y : Logged ε α} (log : x.log = y.log) (result : x.result = y.result) : x = y := by
  cases x
  cases y
  cases log
  cases result
  rfl

@[simp] theorem result_bind (x : Logged ε α) (f : α → Logged ε β) :
    (x >>= f).result = x.result >>= fun a => (f a).result := by
  cases h : x.result with
  | ok a => rw [bind_ok h]; rfl
  | error e => rw [bind_error h]; rfl

protected theorem id_map (x : Logged ε α) : id <$> x = x := by
  change x >>= pure = x
  cases h : x.result with
  | ok a => rw [bind_ok h]; exact ext (List.append_nil _) h.symm
  | error e => rw [bind_error h]; exact ext rfl h.symm

protected theorem bind_assoc (x : Logged ε α) (f : α → Logged ε β) (g : β → Logged ε γ) :
    x >>= f >>= g = x >>= fun a => f a >>= g := by
  cases hx : x.result with
  | error e => rw [bind_error hx, bind_error hx, bind_error rfl]
  | ok a =>
    rw [bind_ok hx, bind_ok hx]
    cases hf : (f a).result with
    | error e => rw [bind_error hf, bind_error rfl]
    | ok b => rw [bind_ok hf, bind_ok rfl, List.append_assoc]

instance : LawfulMonad (Logged ε) :=
  .mk' _ Logged.id_map (fun _ _ => rfl) Logged.bind_assoc

theorem result_each (f : α → Logged ε β) (as : List α) :
    (each f as).result = as.mapM fun a => (f a).result := by
  induction as with
  | nil => rfl
  | cons a as ih =>
    rw [List.mapM_cons, each, result_bind]
    simp only [result_bind, ih]
    rfl

theorem each_congr {f g : α → Logged ε β} {as : List α} (same : ∀ a ∈ as, f a = g a) :
    each f as = each g as := by
  induction as with
  | nil => rfl
  | cons a as ih =>
    rw [List.forall_mem_cons] at same
    rw [each, each, same.1, ih same.2]

theorem each_map (f : β → Logged ε γ) (g : α → β) (as : List α) :
    each f (as.map g) = each (fun a => f (g a)) as := by
  induction as with
  | nil => rfl
  | cons a as ih => rw [List.map_cons, each, each, ih]

/-- When the computation succeeds for each element, the logs follow each other. -/
theorem each_eq {f : α → Logged ε β} {log : α → Explain} {as : List α} {bs : List β}
    (h : List.Forall₂ (fun a b => f a = ⟨log a, .ok b⟩) as bs) :
    each f as = ⟨as.flatMap log, .ok bs⟩ := by
  induction h with
  | nil => rfl
  | cons here _ ih =>
    rw [each, here, bind_ok rfl, ih, bind_ok rfl, pure_def, List.append_nil, List.flatMap_cons]

/-- Whatever a computation logs has a property, whether it succeeds or not. -/
def Logs (P : Explain.Entry → Prop) (x : Logged ε α) : Prop := ∀ e ∈ x.log, P e

namespace Logs

variable {P : Explain.Entry → Prop}

theorem bind {x : Logged ε α} (h : Logs P x) {f : α → Logged ε β} (next : ∀ a, Logs P (f a)) :
    Logs P (x >>= f) := by
  cases hx : x.result with
  | error e =>
    rw [bind_error hx]
    exact h
  | ok a =>
    rw [bind_ok hx]
    exact List.forall_mem_append.mpr ⟨h, next a⟩

theorem pure (a : α) : Logs P (pure a : Logged ε α) := List.forall_mem_nil _

theorem lift (r : Except ε α) : Logs P (.lift r) := List.forall_mem_nil _

theorem fail (e : ε) : Logs P (.fail e : Logged ε α) := List.forall_mem_nil _

theorem tell {level : Explain.Level} {message : String} (h : P ⟨level, message⟩) :
    Logs P (.tell level message : Logged ε Unit) := List.forall_mem_singleton.mpr h

theorem each {f : α → Logged ε β} (step : ∀ a, Logs P (f a)) (as : List α) :
    Logs P (Logged.each f as) := by
  induction as with
  | nil => exact pure []
  | cons a as ih => exact (step a).bind fun _ => ih.bind fun _ => pure _

end Logs

/-- The lists that a computation gives for each element, put together. -/
def gather (f : α → Logged ε (List β)) (as : List α) : Logged ε (List β) := do
  let parts ← each f as
  return parts.flatten

theorem gather_cons (f : α → Logged ε (List β)) (a : α) (as : List α) :
    gather f (a :: as) = do
      let here ← f a
      let rest ← gather f as
      return here ++ rest := by
  simp only [gather, each, bind_assoc, pure_bind, List.flatten_cons]

theorem gather_singleton (f : α → Logged ε (List β)) (a : α) : gather f [a] = f a := by
  simp only [gather, each, bind_assoc, pure_bind, List.flatten_cons, List.flatten_nil,
    List.append_nil, bind_pure]

theorem gather_append (f : α → Logged ε (List β)) (as bs : List α) :
    gather f (as ++ bs) = do
      let here ← gather f as
      let rest ← gather f bs
      return here ++ rest := by
  induction as with
  | nil => exact (bind_pure _).symm
  | cons a as ih =>
    rw [List.cons_append, gather_cons, gather_cons, ih]
    simp only [bind_assoc, pure_bind, List.append_assoc]

theorem gather_flatMap (f : β → Logged ε (List γ)) (g : α → List β) (as : List α) :
    gather f (as.flatMap g) = gather (fun a => gather f (g a)) as := by
  induction as with
  | nil => rfl
  | cons a as ih => rw [List.flatMap_cons, gather_append, gather_cons, ih]

/-- Fails, or else logs an entry and gives a value, where there are any. -/
def attempt (fault : Option ε) (entry : Option Explain.Entry) (value : Option β) :
    Logged ε (List β) :=
  match fault with
  | some e => fail e
  | none => ⟨entry.toList, .ok value.toList⟩

/-- Attempts fail as the first of them that does, and keep the entries of those before it. -/
theorem gather_attempt (fault? : α → Option ε) (report? : α → Option Explain.Entry)
    (value? : α → Option β) (as : List α) :
    gather (fun a => attempt (fault? a) (report? a) (value? a)) as =
      ⟨(as.takeWhile fun a => (fault? a).isNone).filterMap report?,
        (as.findSome? fault?).elim (.ok (as.filterMap value?)) .error⟩ := by
  simp only [List.filterMap_eq_flatMap_toList]
  induction as with
  | nil => rfl
  | cons a as ih =>
    rw [gather_cons, ih, List.takeWhile_cons, List.findSome?_cons]
    cases fault? a with
    | some e => rfl
    | none =>
      rw [bind_ok rfl, Option.isNone_none, if_pos rfl, List.flatMap_cons, List.flatMap_cons]
      cases as.findSome? fault? with
      | some e =>
        rw [bind_error rfl]
        rfl
      | none =>
        rw [bind_ok rfl, pure_def, List.append_nil]
        rfl

/-- Two runs with the same log that end alike. -/
structure Parallel (R : α → β → Prop) (x : Logged ε α) (y : Logged ε β) : Prop where
  log : x.log = y.log
  result : EndAlike R x.result y.result

namespace Parallel

variable {R : α → β → Prop} {S : γ → δ → Prop}

theorem pure {a : α} {b : β} (h : R a b) : Parallel R (pure a : Logged ε α) (pure b) :=
  ⟨rfl, .ok h⟩

theorem self {R : α → α → Prop} (refl : ∀ a, R a a) (x : Logged ε α) : Parallel R x x where
  log := rfl
  result := .self refl x.result

theorem refl (x : Logged ε α) : Parallel Eq x x := self (fun _ => rfl) x

theorem lift {x : Except ε α} {y : Except ε β} (h : EndAlike R x y) :
    Parallel R (.lift x) (.lift y) :=
  ⟨rfl, h⟩

theorem bind {x : Logged ε α} {y : Logged ε β} (h : Parallel R x y) {f : α → Logged ε γ}
    {g : β → Logged ε δ} (next : ∀ a b, R a b → Parallel S (f a) (g b)) :
    Parallel S (x >>= f) (y >>= g) := by
  obtain ⟨_, rx⟩ := x
  obtain ⟨_, ry⟩ := y
  obtain ⟨⟨⟩, result⟩ := h
  cases result with
  | error e => exact ⟨rfl, .error e⟩
  | ok related =>
    obtain ⟨log, result⟩ := next _ _ related
    exact ⟨congrArg _ log, result⟩

theorem each {f : α → Logged ε γ} {g : β → Logged ε δ} {as : List α} {bs : List β}
    (related : List.Forall₂ R as bs) (step : ∀ a b, R a b → Parallel S (f a) (g b)) :
    Parallel (List.Forall₂ S) (Logged.each f as) (Logged.each g bs) := by
  induction related with
  | nil => exact pure .nil
  | cons here _ rest =>
    exact (step _ _ here).bind fun _ _ h => rest.bind fun _ _ hs => pure (.cons h hs)

theorem gather {f : α → Logged ε (List γ)} {g : β → Logged ε (List δ)} {as : List α}
    {bs : List β} (related : List.Forall₂ R as bs)
    (step : ∀ a b, R a b → Parallel (List.Forall₂ S) (f a) (g b)) :
    Parallel (List.Forall₂ S) (Logged.gather f as) (Logged.gather g bs) :=
  (each related step).bind fun _ _ h => pure (List.rel_flatten h)

end Parallel

end Logged

end DataAccess
