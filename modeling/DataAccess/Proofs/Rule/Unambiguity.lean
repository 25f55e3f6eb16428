import DataAccess.Proofs.Rule.Conditions
import DataAccess.Proofs.Sql.Text

/-!
# Texts for audits

Trees that render to the same text render to the same expression, whatever their strings and
patterns contain (`text_injective`).
-/

namespace DataAccess.Node

variable {n m : Node} {t u : Table} {e f : Sql.Expr}

/-- A tree of literals and finite numbers renders to an expression in which all names are plain. -/
structure RendersPlainly (n : Node) (t : Table) (e : Sql.Expr) : Prop where
  rendered : n.render t = .ok e
  literals : n.OfLiterals
  members : n.HasMembers
  finite : ∀ x, .float x ∈ n.literals → x.isFinite = true
  qualifiers : ∀ q ∈ e.qualifiers, Sql.isPlainName q = true
  names : ∀ c ∈ n.columns, Sql.isPlainName c.name = true

theorem RendersPlainly.condition (h : n.RendersPlainly t e) :
    e.Condition Sql.PlainColumn Sql.Literal.IsFinite := by
  obtain ⟨fits, rfl⟩ := render_eq_ok_iff.mp h.rendered
  apply condition_qualify h.literals h.members
  · intro c hc
    refine ⟨?_, h.names c hc⟩
    intro q hq
    apply h.qualifiers
    rw [qualifiers_qualify]
    exact List.mem_filterMap.mpr ⟨c, hc, hq⟩
  · intro l hl
    cases l with
    | float x => exact h.finite x hl
    | _ => trivial

/-- No two expressions have the same text. -/
theorem text_injective (h : n.RendersPlainly t e) (h' : m.RendersPlainly u f)
    (same : e.text = f.text) : e = f :=
  h.condition.eq_of_text_eq h'.condition same

/-- Pinned columns and columns under an alias, compared with a string that looks like SQL. -/
theorem text_injective_of_alias :
    ∃ e f, RendersPlainly (and (eq ⟨some "T", "a"⟩ (.literal (.text "') OR ('1' = '1")))
        (eq ⟨some "t", "b"⟩ (.literal (.float 2)))) ⟨" t ", none⟩ e ∧
      RendersPlainly (and (eq ⟨none, "a"⟩ (.literal (.text "') OR ('1' = '1")))
        (eq ⟨none, "b"⟩ (.literal (.float 2)))) ⟨"u", some "t"⟩ f ∧ e.text = f.text ∧ e = f := by
  have finite : ∀ x : Float,
      .float x ∈ [Sql.Literal.text "') OR ('1' = '1", .float 2] → x.isFinite = true := by
    intro x hx
    simp at hx
    subst hx
    rfl
  have h : RendersPlainly (and (eq ⟨some "T", "a"⟩ (.literal (.text "') OR ('1' = '1")))
      (eq ⟨some "t", "b"⟩ (.literal (.float 2)))) ⟨" t ", none⟩ _ :=
    ⟨rfl, ⟨rfl, rfl⟩, ⟨trivial, trivial⟩, finite, by decide, by decide⟩
  have h' : RendersPlainly (and (eq ⟨none, "a"⟩ (.literal (.text "') OR ('1' = '1")))
      (eq ⟨none, "b"⟩ (.literal (.float 2)))) ⟨"u", some "t"⟩ _ :=
    ⟨rfl, ⟨rfl, rfl⟩, ⟨trivial, trivial⟩, finite, by decide, by decide⟩
  exact ⟨_, _, h, h', rfl, text_injective h h' rfl⟩

end DataAccess.Node
