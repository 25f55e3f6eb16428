import DataAccess.Decision.Constraint
import DataAccess.Proofs.Policy.Scope
import DataAccess.Proofs.Range.Marking

/-!
# Constraints

The texts of policies that restrict rows have a filter exactly when each of them is accepted and has
values for its placeholders (`rowFilter_succeeds_iff`).
-/

namespace DataAccess

open Template

/-- A policy that restricts the rows it allows to those of a text. -/
structure Policy.RestrictsRows (p : Policy) (s : String) : Prop where
  allows : p.effect = some .allow
  scope : p.HasScope .row
  range : p.HasRange s

theorem Policy.rowText?_eq_some_iff {p : Policy} {s : String} :
    p.rowText? = some s ↔ p.RestrictsRows s := by
  rw [rowText?, Option.ite_none_right_eq_some, rangeText?_eq_some_iff, isAllow, Bool.and_eq_true,
    decide_eq_true_eq, decide_eq_true_eq, resolvedScope_eq_iff]
  exact ⟨fun ⟨⟨allows, scope⟩, range⟩ => ⟨allows, scope, range⟩,
    fun h => ⟨⟨h.allows, h.scope⟩, h.range⟩⟩

theorem Policy.rowText?_eq_none_iff {p : Policy} :
    p.rowText? = none ↔ ∀ s, ¬p.RestrictsRows s := by
  simp only [Option.eq_none_iff_forall_ne_some, ne_eq, rowText?_eq_some_iff]

/-- The texts of the policies that restrict rows, in the order of the policies. -/
inductive RowTexts : List Policy → List String → Prop where
  | nil : RowTexts [] []
  | text {p s ps texts} (restricts : p.RestrictsRows s) (rest : RowTexts ps texts) :
      RowTexts (p :: ps) (s :: texts)
  | skip {p ps texts} (apart : ∀ s, ¬p.RestrictsRows s) (rest : RowTexts ps texts) :
      RowTexts (p :: ps) texts

theorem rowTexts_filterMap (ps : List Policy) : RowTexts ps (ps.filterMap Policy.rowText?) := by
  induction ps with
  | nil => exact .nil
  | cons p ps ih =>
    rw [List.filterMap_cons]
    split
    · rename_i none
      exact .skip (Policy.rowText?_eq_none_iff.mp none) ih
    · rename_i s found
      exact .text (Policy.rowText?_eq_some_iff.mp found) ih

/-- A text that is accepted and whose placeholders have values. -/
structure RangeContext.Serves (c : RangeContext) (s : String) : Prop where
  accepted : ∃ r, RowRange.parse s = .ok r
  known : ∃ ps, scan s = .ok ps ∧ ∀ p ∈ ps, (c.lookup p.name).isSome

namespace RowRange

theorem Accepted.serves_iff {s : String} (h : Accepted s) {c : RangeContext} :
    c.Serves s ↔ ∀ name ∈ holes (piecesOf s), (c.value? name).isSome := by
  have found : scan s = .ok (placeholders 0 (piecesOf s)) := by
    rw [scan, h.template]
    rfl
  have names : (∀ p ∈ placeholders 0 (piecesOf s), (c.lookup p.name).isSome) ↔
      ∀ name ∈ holes (piecesOf s), (c.value? name).isSome := by
    rw [← List.forall_mem_map (f := Placeholder.name) (P := fun name => (c.lookup name).isSome),
      names_placeholders, List.forall_mem_map]
    rfl
  rw [← names]
  constructor
  · rintro ⟨-, ps, hps, known⟩
    rw [found] at hps
    cases hps
    exact known
  · exact fun known => ⟨⟨_, h.parse⟩, _, found, known⟩

theorem serves_iff {s : String} (trimmed : Text.trim s = s) {c : RangeContext} :
    c.Serves s ↔ Accepted s ∧ ∀ name ∈ holes (piecesOf s), (c.value? name).isSome := by
  constructor
  · intro h
    obtain ⟨r, hr⟩ := h.accepted
    have accepted := (parse_eq_ok_iff.1 hr).2
    rw [trimmed] at accepted
    exact ⟨accepted, accepted.serves_iff.1 h⟩
  · exact fun ⟨accepted, known⟩ => accepted.serves_iff.2 known

theorem leaves_foldl_or (r : RowRange) (rs : List RowRange) :
    (rs.foldl or r).leaves = r.leaves ++ rs.flatMap leaves := by
  induction rs generalizing r with
  | nil => simp
  | cons q rs ih =>
    rw [List.foldl_cons, ih, leaves, List.flatMap_cons, List.append_assoc]

variable {texts : List String}

theorem mapM_parse_eq_ok_iff (trimmed : ∀ s ∈ texts, Text.trim s = s) {rs : List RowRange} :
    texts.mapM parse = .ok rs ↔ (∀ s ∈ texts, Accepted s) ∧ rs = texts.map .text := by
  induction texts generalizing rs with
  | nil =>
    rw [List.mapM_nil, pure_eq_ok_iff]
    simp [eq_comm]
  | cons s texts ih =>
    obtain ⟨here, rest⟩ := List.forall_mem_cons.1 trimmed
    rw [List.mapM_cons, List.forall_mem_cons]
    simp only [bind_eq_ok_iff, pure_eq_ok_iff, ih rest, parse_eq_ok_iff, here]
    constructor
    · rintro ⟨_, ⟨rfl, accepted⟩, _, ⟨all, rfl⟩, rfl⟩
      exact ⟨⟨accepted, all⟩, rfl⟩
    · rintro ⟨⟨accepted, all⟩, rfl⟩
      exact ⟨_, ⟨rfl, accepted⟩, _, ⟨all, rfl⟩, rfl⟩

/-- Texts as the alternatives of one range. -/
def alternatives? : List String → Option RowRange
  | [] => none
  | s :: texts => some ((texts.map text).foldl or (text s))

theorem alternatives?_eq_none_iff : alternatives? texts = none ↔ texts = [] := by
  cases texts <;> simp [alternatives?]

theorem leaves_alternatives? {r : RowRange} (h : alternatives? texts = some r) :
    r.leaves = texts := by
  cases texts with
  | nil => cases h
  | cons s texts =>
    cases h
    rw [leaves_foldl_or, leaves, List.flatMap_map, List.singleton_append]
    exact congrArg (s :: ·) (List.flatMap_singleton' texts)

theorem parseAll_eq_ok_iff (trimmed : ∀ s ∈ texts, Text.trim s = s) {o : Option RowRange} :
    parseAll texts = .ok o ↔ (∀ s ∈ texts, Accepted s) ∧ o = alternatives? texts := by
  have read : parseAll texts = .ok o ↔
      (∀ s ∈ texts, Accepted s) ∧ (pure (alternatives? texts) : Except RangeError _) = .ok o := by
    rw [parseAll]
    simp only [bind_eq_ok_iff, mapM_parse_eq_ok_iff trimmed]
    constructor
    · rintro ⟨_, ⟨accepted, rfl⟩, eq⟩
      refine ⟨accepted, ?_⟩
      cases texts <;> exact eq
    · rintro ⟨accepted, eq⟩
      refine ⟨_, ⟨accepted, rfl⟩, ?_⟩
      cases texts <;> exact eq
  rw [read, pure_eq_ok_iff, eq_comm]

end RowRange

open RowRange

section
variable {c : RangeContext} {ps : List Policy}

theorem trim_rowTexts : ∀ s ∈ ps.filterMap Policy.rowText?, Text.trim s = s := by
  intro s hs
  obtain ⟨p, -, h⟩ := List.mem_filterMap.1 hs
  exact (Policy.rowText?_eq_some_iff.1 h).range.trim

/-- A row filter is that of the alternatives, if there are any. -/
theorem rowFilter_eq_ok_iff {res : Option ResolvedFilter} :
    rowFilter c ps = .ok res ↔
      (∀ s ∈ ps.filterMap Policy.rowText?, Accepted s) ∧
        ((ps.filterMap Policy.rowText? = [] ∧ res = none) ∨
          ∃ r f, alternatives? (ps.filterMap Policy.rowText?) = some r ∧ r.build c = .ok f ∧
            res = some ⟨f, ps.filterMap Policy.rowText?⟩) := by
  rw [rowFilter]
  simp only [bind_eq_ok_iff, parseAll_eq_ok_iff trim_rowTexts]
  cases eq : ps.filterMap Policy.rowText? with
  | nil => simp [alternatives?, pure, Except.pure, eq_comm]
  | cons s texts =>
    constructor
    · rintro ⟨_, ⟨accepted, rfl⟩, built⟩
      obtain ⟨f, built, res⟩ := bind_eq_ok_iff.1 built
      exact ⟨accepted, .inr ⟨_, f, rfl, built, (pure_eq_ok_iff.1 res).symm⟩⟩
    · rintro ⟨accepted, ⟨empty, -⟩ | ⟨r, f, found, built, rfl⟩⟩
      · cases empty
      · refine ⟨_, ⟨accepted, rfl⟩, ?_⟩
        rw [found]
        exact bind_eq_ok_iff.2 ⟨f, built, rfl⟩

theorem alternatives?_serves_iff {texts : List String} (accepted : ∀ s ∈ texts, Accepted s)
    {r : RowRange} (found : alternatives? texts = some r) :
    (∃ f, r.build c = .ok f) ↔ ∀ s ∈ texts, c.Serves s := by
  have leaves := leaves_alternatives? found
  have parsed : Parsed r := parsed_iff.2 (leaves ▸ accepted)
  calc
    (∃ f, r.build c = .ok f) ↔ ∃ vs, (holes r.template).mapM c.value? = some vs := by
      simp only [parsed.build_eq_ok_iff]
      constructor
      · exact fun ⟨f, values, _⟩ => ⟨f.params, values⟩
      · exact fun ⟨vs, values⟩ => ⟨⟨_, vs⟩, values, rfl⟩
    _ ↔ ∀ s ∈ texts, ∀ name ∈ holes (piecesOf s), (c.value? name).isSome := by
      rw [exists_mapM_eq_some_iff, holes_template, leaves]
      simp only [List.mem_flatMap, forall_exists_index, and_imp]
      exact ⟨fun h s hs name hn => h name s hs hn, fun h name s hs hn => h s hs name hn⟩
    _ ↔ ∀ s ∈ texts, c.Serves s := forall₂_congr fun s hs => (accepted s hs).serves_iff.symm

theorem rowFilter_succeeds_iff :
    (∃ res, rowFilter c ps = .ok res) ↔ ∀ s ∈ ps.filterMap Policy.rowText?, c.Serves s := by
  constructor
  · rintro ⟨res, h⟩
    obtain ⟨accepted, ⟨empty, -⟩ | ⟨r, f, found, built, -⟩⟩ := rowFilter_eq_ok_iff.1 h
    · simp [empty]
    · exact (alternatives?_serves_iff accepted found).1 ⟨f, built⟩
  · intro serves
    have accepted : ∀ s ∈ ps.filterMap Policy.rowText?, Accepted s :=
      fun s hs => ((serves_iff (trim_rowTexts s hs)).1 (serves s hs)).1
    cases eq : alternatives? (ps.filterMap Policy.rowText?) with
    | none =>
      have empty := alternatives?_eq_none_iff.1 eq
      exact ⟨none, rowFilter_eq_ok_iff.2 ⟨accepted, .inl ⟨empty, rfl⟩⟩⟩
    | some r =>
      obtain ⟨f, built⟩ := (alternatives?_serves_iff accepted eq).2 serves
      exact ⟨_, rowFilter_eq_ok_iff.2 ⟨accepted, .inr ⟨r, f, eq, built, rfl⟩⟩⟩

theorem rowFilter_ranges {res : Option ResolvedFilter} (h : rowFilter c ps = .ok res) :
    (res.map ResolvedFilter.ranges).getD [] = ps.filterMap Policy.rowText? ∧
      (res.isSome ↔ ps.filterMap Policy.rowText? ≠ []) := by
  obtain ⟨-, ⟨empty, rfl⟩ | ⟨r, f, found, -, rfl⟩⟩ := rowFilter_eq_ok_iff.1 h
  · simp [empty]
  · rw [ne_eq, ← alternatives?_eq_none_iff, found]
    simp

end

end DataAccess
