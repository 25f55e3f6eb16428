import DataAccess.Proofs.Calendar.Instants
import DataAccess.Proofs.Decision.Matching
import DataAccess.Proofs.Document.Reading

/-!
# Policies that were stored

A reach is stored by its name and read from it, in any case and with blanks around it. All other
parts of a policy come back as they were (`ofDocument?_toDocument`), so the policy matches as before
unless the name of a known reach was kept as if it were unknown (`reload_keeps_matches_iff`).
-/

namespace DataAccess

namespace Reach

variable {r : Reach} {s : String}

theorem ofText_of_read (h : read s = .ok r) : ofText s = r := by
  rw [ofText, h]

theorem ofText_of_unread {e : UnknownReach} (h : read s = .error e) : ofText s = other s := by
  rw [ofText, h]

theorem isKnown_of_read (h : read s = .ok r) : r.isKnown = true := by
  unfold read at h
  split at h <;> cases h <;> rfl

/-- The name of a known reach is read as that reach. -/
theorem ofText_name (known : r.isKnown = true) : ofText r.name = r := by
  cases r with
  | other => cases known
  | self | children | selfAndChildren => decide

end Reach

theorem Effect.ofDocument?_toDocument {δ : Dialect} (e : Effect) :
    ofDocument? δ e.toDocument = some e := by
  cases e <;> rfl

theorem Scope.ofDocument?_toDocument {δ : Dialect} (s : Scope) :
    ofDocument? δ s.toDocument = some s := by
  cases s <;> rfl

theorem Instant.ofDocument?_toDocument {δ : Dialect} (t : Instant) :
    ofDocument? δ t.toDocument = some t := by
  rw [toDocument, ofDocument?, Document.text?, Option.bind_some, text, String.toList_ofList]
  exact lenient?_chars t

namespace Policy

/-- The policy with the reach that the name of its own stands for. -/
def reloaded (p : Policy) : Policy := { p with reach := p.reach.map fun r => .ofText r.name }

theorem ofDocument?_toDocument {δ : Dialect} (p : Policy) :
    ofDocument? δ p.toDocument = some p.reloaded := by
  have text (o : Option String) : Document.option? Document.text? δ (.optional .text o) = some o :=
    Document.option?_optional (by simp) (fun _ => rfl) o
  have reach : Document.option? Reach.ofDocument? δ (.optional Reach.toDocument p.reach) =
      some p.reloaded.reach :=
    Document.option?_optional_map (by simp [Reach.toDocument]) (fun _ => rfl) p.reach
  have effect : Document.option? Effect.ofDocument? δ (.optional Effect.toDocument p.effect) =
      some p.effect :=
    Document.option?_optional (by simp [Effect.toDocument]) Effect.ofDocument?_toDocument p.effect
  have expiry : Document.option? Instant.ofDocument? δ (.optional Instant.toDocument p.expiry) =
      some p.expiry :=
    Document.option?_optional (by simp [Instant.toDocument]) Instant.ofDocument?_toDocument p.expiry
  have scope : Document.option? Scope.ofDocument? δ (.optional Scope.toDocument p.scope) =
      some p.scope :=
    Document.option?_optional (by simp [Scope.toDocument]) Scope.ofDocument?_toDocument p.scope
  rw [ofDocument?, toDocument]
  -- The fields in their order; each is looked up by its name, by computation.
  refine bind_eq_of_some (Document.fields?_table (by decide) rfl) ?_
  refine bind_eq_of_some rfl ?_
  refine bind_eq_of_some (text p.tenant) ?_
  refine bind_eq_of_some (text p.action) ?_
  refine bind_eq_of_some (text p.resourceType) ?_
  refine bind_eq_of_some (text p.resource) ?_
  refine bind_eq_of_some reach ?_
  refine bind_eq_of_some effect ?_
  refine bind_eq_of_some rfl ?_
  refine bind_eq_of_some expiry ?_
  refine bind_eq_of_some rfl ?_
  refine bind_eq_of_some scope ?_
  refine bind_eq_of_some (text p.rowRange) ?_
  refine bind_eq_of_some (Document.nameSet?_names p.allowColumns) ?_
  refine bind_eq_of_some (Document.nameSet?_names p.denyColumns) ?_
  exact bind_eq_of_some (Document.int32?_toInt p.priority) rfl

section
variable {p : Policy} {name : String} {r : Reach}

theorem reloaded_of_read (reach : p.reach = some (.other name)) (read : Reach.read name = .ok r) :
    p.reloaded = { p with reach := some r } := by
  have same : Reach.ofText (Reach.other name).name = r := Reach.ofText_of_read read
  rw [reloaded, reach, Option.map_some, same]

theorem reloaded_of_unread
    (unread : ∀ name r, p.reach = some (.other name) → Reach.read name ≠ .ok r) :
    p.reloaded = p := by
  have same : p.reach.map (fun r => Reach.ofText r.name) = p.reach := by
    cases reach : p.reach with
    | none => rfl
    | some r =>
      apply congrArg some
      cases r with
      | other name =>
        cases read : Reach.read name with
        | ok r => exact absurd read (unread name r reach)
        | error e => exact Reach.ofText_of_unread read
      | self | children | selfAndChildren => exact Reach.ofText_name rfl
  rw [reloaded, same]

/-- A reach that is not known matches nothing. -/
theorem match?_of_other (reach : p.reach = some (.other name)) (ρ : Reach) (c : DecisionContext) :
    p.match? ρ c = none := by
  rw [← Option.not_isSome_iff_eq_none]
  intro found
  have known := (exists_match?_iff.mp ⟨c, found⟩).2.2.1
  rw [reach] at known
  cases known

end

/-- Policies that keep the name of a known reach as if it were unknown, and would match a request
with the reach of that name. -/
def Dormant (p : Policy) : Prop :=
  ∃ name r, p.reach = some (.other name) ∧ Reach.read name = .ok r ∧
    p.action.isSome ∧ p.resource.isSome ∧ (r = .children → p.inherits = true)

/-- What is dormant would match under the reach that it is read back with. -/
theorem dormant_iff {p : Policy} {name : String} {r : Reach}
    (reach : p.reach = some (.other name)) (read : Reach.read name = .ok r) :
    p.Dormant ↔ ∃ ρ c, ({ p with reach := some r }.match? ρ c).isSome := by
  simp only [exists_match?_iff]
  constructor
  · rintro ⟨name', r', reach', read', action, resource, inherits⟩
    obtain rfl : name' = name := by simpa [reach] using reach'.symm
    obtain rfl : r' = r := by simpa [read] using read'.symm
    exact ⟨.self, action, resource, Reach.isKnown_of_read read, inherits⟩
  · rintro ⟨_, action, resource, -, inherits⟩
    exact ⟨name, r, reach, read, action, resource, inherits⟩

/-- No reading of a text makes a policy dormant. -/
theorem not_dormant_of_ofText {p : Policy} {s : String} (reach : p.reach = some (.ofText s)) :
    ¬p.Dormant := by
  rintro ⟨name, r, other, read, -⟩
  rw [reach, Option.some.injEq, Reach.ofText] at other
  split at other
  · rename_i known
    have isKnown := Reach.isKnown_of_read known
    rw [other] at isKnown
    cases isKnown
  · rename_i unknown
    cases other
    rw [read] at unknown
    cases unknown

/-- Every policy is read back from its JSON, and matches as before unless it is dormant. A reach
that is kept under the name of a known one comes back as that one, where the policy matched nothing
before. -/
theorem reload_keeps_matches_iff (p : Policy) :
    ∃ q, ofDocument? .json p.toDocument = some q ∧
      ((∀ ρ c, q.match? ρ c = p.match? ρ c) ↔ ¬p.Dormant) ∧
      ∀ name r, p.reach = some (.other name) → Reach.read name = .ok r →
        q = { p with reach := some r } ∧ ∀ ρ c, p.match? ρ c = none := by
  refine ⟨p.reloaded, ofDocument?_toDocument p, ?_, ?_⟩
  · by_cases masked : ∃ name r, p.reach = some (.other name) ∧ Reach.read name = .ok r
    · obtain ⟨name, r, reach, read⟩ := masked
      simp [reloaded_of_read reach read, dormant_iff reach read, match?_of_other reach]
    · have kept : p.reloaded = p :=
        reloaded_of_unread fun name r reach read => masked ⟨name, r, reach, read⟩
      refine iff_of_true (fun ρ c => by rw [kept]) ?_
      rintro ⟨name, r, reach, read, -⟩
      exact masked ⟨name, r, reach, read⟩
  · intro name r reach read
    exact ⟨reloaded_of_read reach read, match?_of_other reach⟩

/-- A policy that matches nothing, as its reach is the name of a known one in lower case, matches
directly after it was stored. -/
theorem lower_case_self_revived :
    let p : Policy := { create "p" "read" "doc" .allow with reach := some (.other "self") }
    let c := p.sought
    p.match? .self c = none ∧
      (ofDocument? .json p.toDocument).bind (·.match? .self c) = some .direct := by
  intro p c
  refine ⟨rfl, ?_⟩
  rw [ofDocument?_toDocument]
  decide

end Policy

end DataAccess
