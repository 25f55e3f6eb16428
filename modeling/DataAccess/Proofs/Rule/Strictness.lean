import DataAccess.Proofs.Rule.Operand
import DataAccess.Rule.Compile

/-!
# Strict and lenient compilation

A lenient compilation is the strict one until that stops at a value to leave out, and from there on
has an error in its log (`compile_strict_lenient`).
-/

namespace DataAccess

theorem Explain.hasError_append (x y : Explain) :
    Explain.hasError (x ++ y) = (x.hasError || y.hasError) := List.any_append

/-- A fault that a lenient compilation logs instead. -/
def CompileFault.IsLeftOut : CompileFault → Prop
  | missingVariable _ => True
  | mapValue _ => True
  | _ => False

/-- A lenient run is the strict one, or goes on where that stops, with an error in its log. -/
inductive Logged.Relaxes {α : Type} (strict lenient : Logged CompileFault α) : Prop
  | same (eq : lenient = strict)
  | goesOn {fault} (stopped : strict.result = .error fault) (leftOut : fault.IsLeftOut)
      (logged : lenient.log.hasError = true)

namespace Logged.Relaxes

variable {α β : Type}

protected theorem refl {x : Logged CompileFault α} : Relaxes x x := .same rfl

theorem bind {x y : Logged CompileFault α} (h : Relaxes x y) {f g : α → Logged CompileFault β}
    (next : ∀ a, Relaxes (f a) (g a)) : Relaxes (x >>= f) (y >>= g) := by
  cases h with
  | same eq =>
    subst eq
    cases hy : y.result with
    | error fault =>
      apply same
      rw [bind_error hy, bind_error hy]
    | ok a =>
      rw [bind_ok hy, bind_ok hy]
      cases next a with
      | same eq =>
        apply same
        rw [eq]
      | goesOn stopped leftOut logged =>
        refine .goesOn stopped leftOut ?_
        rw [Explain.hasError_append, logged, Bool.or_true]
  | goesOn stopped leftOut logged =>
    rw [bind_error stopped]
    refine .goesOn rfl leftOut ?_
    cases hy : y.result with
    | error fault =>
      rw [bind_error hy]
      exact logged
    | ok a => rw [bind_ok hy, Explain.hasError_append, logged, Bool.true_or]

theorem each {γ : Type} {f g : γ → Logged CompileFault α} (step : ∀ c, Relaxes (f c) (g c))
    (cs : List γ) : Relaxes (Logged.each f cs) (Logged.each g cs) := by
  induction cs with
  | nil => exact .refl
  | cons c cs ih => exact (step c).bind fun _ => ih.bind fun _ => .refl

end Logged.Relaxes

open Logged

namespace Operand

variable (s : CompilerSettings) (field : String) (r : Requester)

theorem take_relaxes (p : Part) :
    Relaxes (take { s with strict := true } field p) (take { s with strict := false } field p) := by
  cases p with
  | map | missing => exact .goesOn rfl trivial rfl
  | _ => exact .refl

theorem resolveAll_relaxes (operands : List Value) :
    Relaxes (resolveAll { s with strict := true } field r operands)
      (resolveAll { s with strict := false } field r operands) := by
  rw [resolveAll_eq_gather, resolveAll_eq_gather]
  exact (Relaxes.each (take_relaxes s field) _).bind fun _ => .refl

end Operand

namespace CompileScope

variable (k : CompileScope)

/-- The scope with a choice between strict and lenient compilation. -/
def withStrict (strict : Bool) : CompileScope :=
  { k with settings := { k.settings with strict := strict } }

theorem predicate_relaxes (p : Predicate) :
    Relaxes ((k.withStrict true).predicate p) ((k.withStrict false).predicate p) :=
  Relaxes.refl.bind fun _ => (Operand.resolveAll_relaxes _ _ _ _).bind fun _ => .refl

theorem rule_relaxes (r : Rule) :
    Relaxes ((k.withStrict true).rule r) ((k.withStrict false).rule r) :=
  (Relaxes.each k.predicate_relaxes _).bind fun _ => .refl

theorem rules_relaxes (rs : List Rule) :
    Relaxes ((k.withStrict true).rules rs) ((k.withStrict false).rules rs) := by
  unfold rules
  split
  · exact .refl
  · exact (Relaxes.each k.rule_relaxes _).bind fun _ => .refl

end CompileScope

/-- A strict compilation that succeeds is the lenient one, and so is a lenient one without errors in
its log. The choice matters to no other fault. -/
theorem RuleSet.compile_strict_lenient (settings : CompilerSettings) (requester : Requester)
    (fields : FieldLookup) (s : RuleSet) :
    let strict := s.compile { settings with strict := true } requester fields
    let lenient := s.compile { settings with strict := false } requester fields
    (∀ c, strict = .ok c → lenient = .ok c) ∧
      (∀ c, lenient = .ok c → c.explain.hasError = false → strict = .ok c) ∧
      ∀ e, strict = .error e → ¬e.fault.IsLeftOut → lenient = .error e := by
  intro strict lenient
  cases CompileScope.rules_relaxes ⟨settings, requester, fields, s.resource⟩ s.ordered with
  | same eq =>
    have same : lenient = strict := by
      unfold lenient strict compile
      exact eq ▸ rfl
    rw [same]
    exact ⟨fun _ => id, fun _ h _ => h, fun _ h _ => h⟩
  | @goesOn fault stopped leftOut logged =>
    refine ⟨?_, ?_, ?_⟩
    · intro c succeeded
      obtain ⟨succeeded, -⟩ := compile_eq_ok_iff.1 succeeded
      rw [CompileScope.withStrict, succeeded] at stopped
      cases stopped
    · intro c succeeded clean
      obtain ⟨succeeded, -⟩ := compile_eq_ok_iff.1 succeeded
      rw [CompileScope.withStrict, succeeded, clean] at logged
      cases logged
    · intro e failed other
      obtain ⟨log, failed, -⟩ := compile_eq_error_iff.1 failed
      rw [CompileScope.withStrict, failed] at stopped
      cases stopped
      exact absurd leftOut other

end DataAccess
