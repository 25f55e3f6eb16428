import DataAccess.Proofs.Decision.Evaluation
import DataAccess.Proofs.Logged

/-!
# Binding

The values of a request reach a decision as parameters of its row filter and in no other way. Two
requests that have values in the same places are decided alike, with related parameters where the
values are related (`evaluate_alike`), and what the environment holds under the name of a part of
the request is never read (`evaluate_binds_values`).
-/

namespace DataAccess

section
variable (V : Value → Value → Prop)

/-- The same characters, with related values behind the marks. -/
structure MarkedText.Alike (t u : MarkedText) : Prop where
  chars : t.chars = u.chars
  params : List.Forall₂ V t.params u.params

structure RowFilter.Alike (f g : RowFilter) : Prop where
  sql : f.sql = g.sql
  params : List.Forall₂ V f.params g.params

structure ResolvedFilter.Alike (x y : ResolvedFilter) : Prop where
  filter : x.filter.Alike V y.filter
  ranges : x.ranges = y.ranges

structure Decision.Alike (d e : Decision) : Prop where
  verdict : d.verdict = e.verdict
  reason : d.reason = e.reason
  rowFilter : Option.Rel (RowFilter.Alike V) d.rowFilter e.rowFilter
  columns : d.columns = e.columns

structure Outcome.Alike (x y : Outcome) : Prop where
  decision : x.decision.Alike V y.decision
  ranges : x.ranges = y.ranges
  explain : x.explain = y.explain

/-- Decisions that are equal but for parameters, which are related. -/
structure Explained.Alike (x y : Explained) : Prop where
  decision : x.decision.Alike V y.decision
  allowIds : x.allowIds = y.allowIds
  denyIds : x.denyIds = y.denyIds
  ranges : x.ranges = y.ranges
  inherited : x.inherited = y.inherited
  explain : x.explain = y.explain

/-- Contexts in which each placeholder has related values, or none in both. -/
def RangeContext.Alike (c d : RangeContext) : Prop :=
  ∀ name, Option.Rel V (c.lookup name) (d.lookup name)

end

variable {V : Value → Value → Prop}

/-! ## Filters -/

section
variable {c d : RangeContext}

theorem RangeContext.Alike.ofPieces (h : c.Alike V d) (ps : List Template.Piece) :
    EndAlike (MarkedText.Alike V) (MarkedText.ofPieces c ps) (MarkedText.ofPieces d ps) := by
  induction ps with
  | nil => exact .ok ⟨rfl, .nil⟩
  | cons p ps ih =>
    cases p with
    | char ch =>
      apply ih.bind
      intro t u texts
      exact .ok ⟨congrArg (ch :: ·) texts.chars, texts.params⟩
    | hole name =>
      rw [MarkedText.ofPieces, MarkedText.ofPieces]
      have found := h (String.ofList name)
      generalize c.lookup (String.ofList name) = x, d.lookup (String.ofList name) = y at found ⊢
      cases found with
      | none => exact .error _
      | some values =>
        apply ih.bind
        intro t u texts
        exact .ok ⟨congrArg ('?' :: ·) texts.chars, .cons values texts.params⟩

theorem RangeContext.Alike.ofRange (h : c.Alike V d) (r : RowRange) :
    EndAlike (MarkedText.Alike V) (MarkedText.ofRange c r) (MarkedText.ofRange d r) := by
  induction r with
  | text s =>
    rw [MarkedText.ofRange, MarkedText.ofRange]
    cases Template.pieces 0 s.toList with
    | error fault => exact .error _
    | ok ps =>
      apply (h.ofPieces ps).map
      intro t u texts
      exact ⟨congrArg ('(' :: · ++ [')']) texts.chars, texts.params⟩
  | or l r ihl ihr =>
    apply ihl.bind
    intro t u left
    apply ihr.bind
    intro t' u' right
    refine .ok ⟨?_, List.rel_append left.params right.params⟩
    rw [MarkedText.or, MarkedText.or, left.chars, right.chars]

theorem RangeContext.Alike.build (h : c.Alike V d) (r : RowRange) :
    EndAlike (RowFilter.Alike V) (r.build c) (r.build d) := by
  apply (h.ofRange r).map
  intro t u texts
  exact ⟨congrArg String.ofList texts.chars, texts.params⟩

/-- Whether and why a filter fails does not depend on values, nor does its text. -/
theorem RangeContext.Alike.rowFilter (h : c.Alike V d) (ps : List Policy) :
    EndAlike (Option.Rel (ResolvedFilter.Alike V)) (rowFilter c ps) (rowFilter d ps) := by
  apply (EndAlike.refl (RowRange.parseAll (ps.filterMap Policy.rowText?))).bind
  intro o o' same
  subst same
  cases o with
  | none => exact .ok .none
  | some r =>
    apply (h.build r).bind
    intro f g filters
    exact .ok (.some ⟨filters, rfl⟩)

end

/-! ## Decisions -/

theorem Outcome.Alike.refused (reason : String) (explain : Explain) :
    Outcome.Alike V ⟨.deny reason, [], explain⟩ ⟨.deny reason, [], explain⟩ where
  decision := ⟨rfl, rfl, .none, rfl⟩
  ranges := rfl
  explain := rfl

theorem Outcome.Alike.allowance {c d : RangeContext} (h : c.Alike V d) (ps : List Policy)
    (ids : List String) : (allowance c ps ids).Alike V (allowance d ps ids) := by
  unfold Outcome.allowance
  have built := h.rowFilter ps
  generalize rowFilter c ps = x, rowFilter d ps = y at built ⊢
  cases built with
  | error e => exact .refused _ _
  | ok resolved =>
    cases resolved with
    | none => exact ⟨⟨rfl, rfl, .none, rfl⟩, rfl, rfl⟩
    | @some res res' filters =>
      refine ⟨⟨rfl, rfl, .some filters.filter, rfl⟩, filters.ranges, ?_⟩
      simp only [Option.map_some, Option.getD_some, Option.isSome_some, filters.ranges]

theorem Outcome.Alike.ofApplicable {c d : RangeContext} (h : c.Alike V d) (ps : List Policy) :
    (ofApplicable c ps).Alike V (ofApplicable d ps) := by
  unfold Outcome.ofApplicable
  cases (merge ps).verdict with
  | deny => exact .refused _ _
  | allow => exact .allowance h ps _

/-- The same request, but for the subject and the environment. -/
structure DecisionContext.SameRequest (c d : DecisionContext) : Prop where
  tenant : c.tenant = d.tenant
  resource : c.resource = d.resource
  action : c.action = d.action
  time : c.time = d.time
  policies : c.policies = d.policies

section
variable {c d : DecisionContext} {ρ : Reach}

namespace DecisionContext.SameRequest

theorem match?_eq (h : c.SameRequest d) (p : Policy) : p.match? ρ c = p.match? ρ d := by
  unfold Policy.match? Policy.isEffective
  rw [h.tenant, h.time, h.action, h.resource]

/-- Neither the subject nor the environment is looked at to find the policies that apply. -/
theorem survey_eq (h : c.SameRequest d) : c.survey ρ = d.survey ρ := by
  have check : Survey.check ρ c = Survey.check ρ d := by
    funext s p
    unfold Survey.check
    rw [h.match?_eq]
  unfold DecisionContext.survey
  rw [check, h.policies]

theorem applicable_eq (h : c.SameRequest d) : c.applicable ρ = d.applicable ρ := by
  rw [← survey_applicable, h.survey_eq, survey_applicable]

end DecisionContext.SameRequest

theorem evaluate_alike (same : c.SameRequest d) (lookups : c.range.Alike V d.range) :
    (evaluate ρ c).Alike V (evaluate ρ d) := by
  have decided : (Outcome.ofApplicable c.range (c.applicable ρ)).Alike V
      (Outcome.ofApplicable d.range (d.applicable ρ)) := by
    rw [same.applicable_eq]
    exact .ofApplicable lookups _
  refine ⟨?_, ?_, ?_, ?_, ?_, ?_⟩
  · rw [evaluate_decision, evaluate_decision]
    exact decided.decision
  · rw [evaluate_allowIds, evaluate_allowIds, same.applicable_eq]
  · rw [evaluate_denyIds, evaluate_denyIds, same.applicable_eq]
  · rw [evaluate_ranges, evaluate_ranges]
    exact decided.ranges
  · rw [evaluate_inherited, evaluate_inherited, same.survey_eq]
  · rw [evaluate_explain, evaluate_explain, same.survey_eq, decided.explain]

end

/-! ## Values -/

/-- The names that stand for parts of the request. -/
def RangeContext.reserved : List String :=
  ["tenantCode", "subjectId", "resourceCode", "resourceTypeCode"]

theorem RangeContext.lookup_of_not_reserved (c : RangeContext) {name : String}
    (free : name ∉ reserved) : c.lookup name = c.environment.get? name := by
  unfold lookup
  split <;> simp_all [reserved]

theorem related_self (refl : ∀ v, V v v) (o : Option Value) : Option.Rel V o o := by
  cases o with
  | none => exact .none
  | some v => exact .some (refl v)

theorem related_of_isSome_eq {o o' : Option Value} (h : o.isSome = o'.isSome) :
    Option.Rel (fun _ _ => True) o o' := by
  cases o with
  | none =>
    cases o' with
    | none => exact .none
    | some w => cases h
  | some v =>
    cases o' with
    | none => cases h
    | some w => exact .some trivial

section
variable {c d : DecisionContext}

/-- A reserved name never leads to the environment. -/
theorem DecisionContext.SameRequest.lookups (same : c.SameRequest d) (refl : ∀ v, V v v)
    (subject : Option.Rel V (c.subject.id.map .text) (d.subject.id.map .text))
    (environment : ∀ name ∉ RangeContext.reserved,
      Option.Rel V (c.environment.get? name) (d.environment.get? name)) :
    c.range.Alike V d.range := by
  intro name
  by_cases free : name ∉ RangeContext.reserved
  · rw [RangeContext.lookup_of_not_reserved _ free, RangeContext.lookup_of_not_reserved _ free]
    exact environment name free
  · simp only [RangeContext.reserved, List.mem_cons, List.not_mem_nil, or_false,
      Decidable.not_not] at free
    rcases free with rfl | rfl | rfl | rfl
    · change Option.Rel V (c.tenant.map .text) (d.tenant.map .text)
      rw [same.tenant]
      exact related_self refl _
    · exact subject
    · change Option.Rel V (c.resource.code.map .text) (d.resource.code.map .text)
      rw [same.resource]
      exact related_self refl _
    · change Option.Rel V (c.resource.typeCode.map .text) (d.resource.typeCode.map .text)
      rw [same.resource]
      exact related_self refl _

/-- The same request, but for which values it has: the id of a subject that has one, the attributes
of the subject, and the values of the environment. The environment may have any values at all
under reserved names. -/
structure DecisionContext.SameButValues (c d : DecisionContext) : Prop extends c.SameRequest d where
  subject : c.subject.id.isSome = d.subject.id.isSome
  environment : ∀ name ∉ RangeContext.reserved,
    (c.environment.get? name).isSome = (d.environment.get? name).isSome

end

/-- Decisions that are equal but for the values of parameters. -/
structure Explained.SameButParams (x y : Explained) : Prop where
  verdict : x.decision.verdict = y.decision.verdict
  reason : x.decision.reason = y.decision.reason
  sql : x.decision.rowFilter.map RowFilter.sql = y.decision.rowFilter.map RowFilter.sql
  paramCount : x.decision.rowFilter.map (·.params.length) =
    y.decision.rowFilter.map (·.params.length)
  columns : x.decision.columns = y.decision.columns
  allowIds : x.allowIds = y.allowIds
  denyIds : x.denyIds = y.denyIds
  ranges : x.ranges = y.ranges
  inherited : x.inherited = y.inherited
  explain : x.explain = y.explain

section
variable {x y : Explained}

theorem RowFilter.map_eq_of_alike {o o' : Option RowFilter}
    (h : Option.Rel (RowFilter.Alike V) o o') :
    o.map sql = o'.map sql ∧ o.map (·.params.length) = o'.map (·.params.length) := by
  cases h with
  | none => exact ⟨rfl, rfl⟩
  | some filters => exact ⟨congrArg some filters.sql, congrArg some filters.params.length_eq⟩

theorem Explained.Alike.sameButParams (h : x.Alike V y) : x.SameButParams y := by
  obtain ⟨sql, paramCount⟩ := RowFilter.map_eq_of_alike h.decision.rowFilter
  exact ⟨h.decision.verdict, h.decision.reason, sql, paramCount, h.decision.columns, h.allowIds,
    h.denyIds, h.ranges, h.inherited, h.explain⟩

theorem RowFilter.Alike.eq {f g : RowFilter} (h : f.Alike Eq g) : f = g := by
  have values := h.params
  rw [List.forall₂_eq_eq_eq] at values
  obtain ⟨sql, params⟩ := f
  obtain ⟨sql', params'⟩ := g
  rw [mk.injEq]
  exact ⟨h.sql, values⟩

theorem Decision.Alike.eq {d e : Decision} (h : d.Alike Eq e) : d = e := by
  obtain ⟨verdict, reason, rowFilter, columns⟩ := d
  obtain ⟨verdict', reason', rowFilter', columns'⟩ := e
  have filters : rowFilter = rowFilter' := by
    cases h.rowFilter with
    | none => rfl
    | some filters => rw [filters.eq]
  rw [mk.injEq]
  exact ⟨h.verdict, h.reason, filters, h.columns⟩

theorem Explained.Alike.eq (h : x.Alike Eq y) : x = y := by
  obtain ⟨decision, allowIds, denyIds, ranges, inherited, explain⟩ := x
  obtain ⟨decision', allowIds', denyIds', ranges', inherited', explain'⟩ := y
  rw [mk.injEq]
  exact ⟨h.decision.eq, h.allowIds, h.denyIds, h.ranges, h.inherited, h.explain⟩

end

/-- Values of a request that may come from anywhere change nothing in a decision but parameters of
its row filter. They do not change these either where they pretend to be parts of the request. -/
theorem evaluate_binds_values (ρ : Reach) {c d : DecisionContext} (same : c.SameButValues d) :
    (evaluate ρ c).SameButParams (evaluate ρ d) ∧
      (c.subject.id = d.subject.id →
        (∀ name ∉ RangeContext.reserved, c.environment.get? name = d.environment.get? name) →
        evaluate ρ c = evaluate ρ d) := by
  constructor
  · apply Explained.Alike.sameButParams (V := fun _ _ => True)
    apply evaluate_alike same.toSameRequest
    apply same.lookups
    · exact fun _ => trivial
    · apply related_of_isSome_eq
      rw [Option.isSome_map, Option.isSome_map, same.subject]
    · intro name free
      exact related_of_isSome_eq (same.environment name free)
  · intro subject environment
    apply Explained.Alike.eq
    apply evaluate_alike same.toSameRequest
    apply same.lookups
    · exact fun _ => rfl
    · rw [subject]
      exact related_self (fun _ => rfl) _
    · intro name free
      rw [environment name free]
      exact related_self (fun _ => rfl) _

/-- All may read a document's rows that they own in a region. -/
def ownRegion : Policy :=
  { Policy.create "a" "read" "doc" .allow with
    rowRange := some ("owner = $\x7bsubjectId\x7d AND region = $\x7bregion\x7d" ++
      " AND tenant = $\x7btenantCode\x7d") }

/-- A request of a tenant for a document's rows in a region. -/
def regionRequest (subject region : String) : DecisionContext :=
  { DecisionContext.request (.named subject) "read" { code := some "doc" } .epoch with
    tenant := some "acme", environment := Dictionary.empty.insert "region" (.text region)
    policies := [ownRegion] }

/-- The request with another tenant in its environment. -/
def spoofedRequest (subject region : String) : DecisionContext :=
  { regionRequest subject region with
    environment := (regionRequest subject region).environment.insert "tenantCode" (.text "globex") }

theorem regionRequest_sameButValues (subject subject' region region' : String) :
    (regionRequest subject region).SameButValues (spoofedRequest subject' region') := by
  refine ⟨⟨rfl, rfl, rfl, rfl, rfl⟩, rfl, ?_⟩
  intro name free
  have other : "tenantCode" ≠ name := by
    intro reserved
    exact free (reserved ▸ by decide)
  simp only [spoofedRequest, regionRequest, Dictionary.get?_insert, if_neg other]
  split <;> rfl

theorem evaluate_binds_spoofed_request :
    (regionRequest "u-1" "eu").SameButValues (spoofedRequest "u-2' OR 1=1 --" "us") ∧
      (evaluate .self (regionRequest "u-1" "eu")).SameButParams
        (evaluate .self (spoofedRequest "u-2' OR 1=1 --" "us")) := by
  have same := regionRequest_sameButValues "u-1" "u-2' OR 1=1 --" "eu" "us"
  exact ⟨same, (evaluate_binds_values .self same).1⟩

end DataAccess
