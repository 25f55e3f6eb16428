import DataAccess.Config.Basic
import Mathlib.Tactic.SplitIfs

/-!
# Layers of configurations

A layer over another configuration brings in its settings that are not the default. The settings are
merged one by one, so the laws of merging are those of a single setting, and a configuration that is
merged from usable ones has nothing but their settings and is usable as well (`merge_coherent`).
-/

namespace DataAccess.Config

section
variable {α : Type} [DecidableEq α] (d a b c : α)

@[simp] theorem layer_default : layer d a d = a := if_pos rfl

@[simp] theorem default_layer : layer d d b = b := by
  rw [layer]
  split
  · rename_i unset
    exact unset.symm
  · rfl

@[simp] theorem layer_self : layer d a a = a := ite_self a

variable {d c} in
theorem layer_of_ne (set : c ≠ d) : layer d a c = c := if_neg set

theorem layer_assoc : layer d (layer d a b) c = layer d a (layer d b c) := by
  by_cases unset : c = d
  · rw [unset, layer_default, layer_default]
  · rw [layer_of_ne _ unset, layer_of_ne b unset, layer_of_ne a unset]

/-- What a setting overrides may have been that setting before. -/
theorem layer_layer_self : layer d (layer d a b) a = layer d b a := by
  by_cases unset : a = d
  · rw [unset, layer_default, layer_default, default_layer]
  · rw [layer_of_ne _ unset, layer_of_ne b unset]

variable {d a b} in
theorem layer_rec (P : α → Prop) (lower : P a) (upper : P b) : P (layer d a b) := by
  rw [layer]
  split
  · exact lower
  · exact upper

end

theorem validate_eq_ok_iff {c : Config} :
    c.validate = .ok () ↔ c.compiler.maxDepth ≠ 0 ∧
      Text.isBlankText c.compiler.subjectVariable = false ∧
        c.engine.defaultReach.isKnown = true := by
  rw [validate]
  split_ifs with depth blank
  · simp [depth]
  · simp [blank]
  · cases c.engine.defaultReach <;> simp [depth, blank, Reach.isKnown]

theorem validate_merge {a b : Config} (lower : a.validate = .ok ()) (upper : b.validate = .ok ()) :
    (a.merge b).validate = .ok () := by
  obtain ⟨depth, subject, reach⟩ := validate_eq_ok_iff.mp lower
  obtain ⟨depth', subject', reach'⟩ := validate_eq_ok_iff.mp upper
  apply validate_eq_ok_iff.mpr
  refine ⟨?_, ?_, ?_⟩
  · exact layer_rec (· ≠ 0) depth depth'
  · exact layer_rec (Text.isBlankText · = false) subject subject'
  · exact layer_rec (Reach.isKnown · = true) reach reach'

/-- Layers may be put together in any grouping, the default configuration is no layer at all, a
layer over itself changes nothing, and one that comes again on top need not stand below. What is
merged from usable configurations is usable. -/
theorem merge_coherent (a b c : Config) :
    (a.merge b).merge c = a.merge (b.merge c) ∧
      merge {} a = a ∧ a.merge {} = a ∧ a.merge a = a ∧
      (a.merge b).merge a = b.merge a ∧
      (a.validate = .ok () → b.validate = .ok () → (a.merge b).validate = .ok ()) := by
  refine ⟨?_, ?_, ?_, ?_, ?_, validate_merge⟩
  · simp only [merge, layer_assoc]
  · simp only [merge, default_layer]
  · simp only [merge, layer_default]
  · simp only [merge, layer_self]
  · simp only [merge, layer_layer_self]

/-- A layer that bounds the depth of values. -/
def shallow : Config :=
  { compiler := { maxDepth := 4 }, engine := { defaultReach := .children } }

/-- A layer that logs missing variables. -/
def lenient : Config := { compiler := .lenient, logging := { level := .debug } }

theorem merge_coherent_lenient_over_shallow :
    shallow.validate = .ok () ∧ lenient.validate = .ok () ∧
      (shallow.merge lenient).validate = .ok () ∧ shallow.merge lenient =
        { compiler := { strict := false, maxDepth := 4 }, engine := { defaultReach := .children }
          logging := { level := .debug } } := by
  have lower : shallow.validate = .ok () := validate_eq_ok_iff.mpr (by decide)
  have upper : lenient.validate = .ok () := validate_eq_ok_iff.mpr (by decide)
  obtain ⟨-, -, -, -, -, usable⟩ := merge_coherent shallow lenient {}
  exact ⟨lower, upper, usable lower upper, by decide⟩

end DataAccess.Config
