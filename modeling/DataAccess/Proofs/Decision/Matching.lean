import DataAccess.Decision.Match
import DataAccess.Proofs.Text.Trim

/-!
# Matching

A policy applies when it is open to the tenant, in force at the time, and about the action and the
type of the resource, and when it reaches the resource itself or from above (`Policy.Applies`). The
match is direct when it reaches the resource itself, and else inherited (`match?_applies`).
-/

namespace DataAccess.Policy

/-- A policy that is about a request, apart from the resource that it names. -/
structure Concerns (p : Policy) (c : DecisionContext) : Prop where
  tenant : ∀ t, p.tenant = some t → Text.trim t = "" ∨ c.tenant = some t
  time : p.neverExpires = true ∨ ∀ t, p.expiry = some t → c.time ≤ t
  action : ∃ a b, p.action = some a ∧ c.action = some b ∧ Text.toLower a = Text.toLower b
  type : ∀ a b, p.resourceType = some a → c.resource.typeCode = some b →
    Text.trim a ≠ "" → Text.trim b ≠ "" → Text.toLower a = Text.toLower b

/-- A policy that names a resource, and whose reach or the default one includes it. -/
structure ReachesItself (ρ : Reach) (p : Policy) (r : Resource) : Prop where
  reach : p.reach.getD ρ = .self ∨ p.reach.getD ρ = .selfAndChildren
  named : ∃ a b, p.resource = some a ∧ r.code = some b ∧ Text.toLower b = Text.toLower a

/-- A policy that names a resource above, and whose reach or the default one includes what is under
it. -/
structure ReachesBelow (ρ : Reach) (p : Policy) (r : Resource) : Prop where
  reach : p.reach.getD ρ = .children ∨ p.reach.getD ρ = .selfAndChildren
  inherits : p.inherits = true
  above : ∃ a, p.resource = some a ∧ (a ∈ r.ancestorCodes ∨ r.parentCode = some a)

/-- All that it takes for a policy to apply to a request. -/
structure Applies (ρ : Reach) (p : Policy) (c : DecisionContext) : Prop extends p.Concerns c where
  reached : p.ReachesItself ρ c.resource ∨ p.ReachesBelow ρ c.resource

section
variable {ρ : Reach} {p : Policy} {c : DecisionContext} {r : Resource} {t : Instant}

theorem isOpenTo_iff {tenant : Option String} :
    p.isOpenTo tenant = true ↔ ∀ t, p.tenant = some t → Text.trim t = "" ∨ tenant = some t := by
  unfold isOpenTo
  cases p.tenant <;> simp [Text.trim_eq_empty_iff]

theorem isInForce_iff :
    p.isInForce t = true ↔ p.neverExpires = true ∨ ∀ e, p.expiry = some e → t ≤ e := by
  unfold isInForce
  cases p.expiry <;> simp

theorem namesAction_iff {action : Option String} :
    p.namesAction action = true ↔
      ∃ a b, p.action = some a ∧ action = some b ∧ Text.toLower a = Text.toLower b := by
  unfold namesAction
  cases p.action <;> cases action <;> simp [Text.alike_iff]

theorem namesType_iff :
    p.namesType r = true ↔ ∀ a b, p.resourceType = some a → r.typeCode = some b →
      Text.trim a ≠ "" → Text.trim b ≠ "" → Text.toLower a = Text.toLower b := by
  unfold namesType
  cases p.resourceType <;> cases r.typeCode <;>
    simp [Text.alike_iff, Text.trim_eq_empty_iff, or_iff_not_imp_left]

theorem concerns_iff :
    p.Concerns c ↔ (p.isEffective c && p.namesAction c.action) = true ∧
      p.namesType c.resource = true := by
  simp only [isEffective, Bool.and_eq_true, isOpenTo_iff, isInForce_iff, namesAction_iff,
    namesType_iff]
  exact ⟨fun h => ⟨⟨⟨h.tenant, h.time⟩, h.action⟩, h.type⟩,
    fun ⟨⟨⟨tenant, time⟩, action⟩, type⟩ => ⟨tenant, time, action, type⟩⟩

theorem reachesItself_iff {code : String} (named : p.resource = some code) :
    p.ReachesItself ρ r ↔
      (p.reach.getD ρ = .self ∨ p.reach.getD ρ = .selfAndChildren) ∧ names code r = true := by
  have names_iff : names code r = true ↔
      ∃ a b, p.resource = some a ∧ r.code = some b ∧ Text.toLower b = Text.toLower a := by
    unfold names
    cases r.code <;> simp [named, Text.alike_iff]
  rw [names_iff]
  exact ⟨fun h => ⟨h.reach, h.named⟩, fun ⟨reach, named⟩ => ⟨reach, named⟩⟩

theorem reachesBelow_iff {code : String} (named : p.resource = some code) :
    p.ReachesBelow ρ r ↔
      (p.reach.getD ρ = .children ∨ p.reach.getD ρ = .selfAndChildren) ∧
        p.namesAncestor code r = true := by
  have above_iff : p.namesAncestor code r = true ↔ p.inherits = true ∧
      ∃ a, p.resource = some a ∧ (a ∈ r.ancestorCodes ∨ r.parentCode = some a) := by
    simp [namesAncestor, Resource.isUnder, named]
  rw [above_iff]
  exact ⟨fun h => ⟨h.reach, h.inherits, h.above⟩, fun ⟨reach, inherits, above⟩ =>
    ⟨reach, inherits, above⟩⟩

theorem resource_of_reached (h : p.ReachesItself ρ r ∨ p.ReachesBelow ρ r) :
    ∃ code, p.resource = some code := by
  rcases h with itself | below
  · obtain ⟨a, -, named, -⟩ := itself.named
    exact ⟨a, named⟩
  · obtain ⟨a, named, -⟩ := below.above
    exact ⟨a, named⟩

/-- Reaching the resource itself comes first. -/
theorem resourceMatch?_eq_some_iff {m : Match} :
    p.resourceMatch? ρ r = some m ↔ p.namesType r = true ∧
      (m = .direct ∧ p.ReachesItself ρ r ∨
        m = .inherited ∧ p.ReachesBelow ρ r ∧ ¬p.ReachesItself ρ r) := by
  unfold resourceMatch?
  rw [Option.ite_none_right_eq_some]
  apply and_congr_right
  intro _
  cases named : p.resource with
  | none =>
    have unreached : ¬(p.ReachesItself ρ r ∨ p.ReachesBelow ρ r) := by
      intro h
      simpa [named] using resource_of_reached h
    obtain ⟨apart, unreached⟩ := not_or.mp unreached
    simp [apart, unreached]
  | some code =>
    rw [reachesItself_iff named, reachesBelow_iff named]
    dsimp only
    cases p.reach.getD ρ <;> cases names code r <;> cases p.namesAncestor code r <;> cases m <;>
      simp

theorem match?_eq_some_iff {m : Match} :
    p.match? ρ c = some m ↔ p.Concerns c ∧
      (m = .direct ∧ p.ReachesItself ρ c.resource ∨
        m = .inherited ∧ p.ReachesBelow ρ c.resource ∧ ¬p.ReachesItself ρ c.resource) := by
  unfold match?
  rw [Option.ite_none_right_eq_some, resourceMatch?_eq_some_iff, concerns_iff, and_assoc]

theorem match?_eq_direct_iff :
    p.match? ρ c = some .direct ↔ p.Applies ρ c ∧ p.ReachesItself ρ c.resource := by
  rw [match?_eq_some_iff]
  constructor
  · rintro ⟨concerns, ⟨-, itself⟩ | ⟨⟨⟩, -⟩⟩
    exact ⟨⟨concerns, .inl itself⟩, itself⟩
  · exact fun ⟨applies, itself⟩ => ⟨applies.toConcerns, .inl ⟨rfl, itself⟩⟩

theorem match?_eq_inherited_iff :
    p.match? ρ c = some .inherited ↔ p.Applies ρ c ∧ ¬p.ReachesItself ρ c.resource := by
  rw [match?_eq_some_iff]
  constructor
  · rintro ⟨concerns, ⟨⟨⟩, -⟩ | ⟨-, below, apart⟩⟩
    exact ⟨⟨concerns, .inr below⟩, apart⟩
  · exact fun ⟨applies, apart⟩ =>
      ⟨applies.toConcerns, .inr ⟨rfl, applies.reached.resolve_left apart, apart⟩⟩

theorem match?_isSome_iff : (p.match? ρ c).isSome ↔ p.Applies ρ c := by
  rw [Option.isSome_iff_exists]
  constructor
  · rintro ⟨m, found⟩
    cases m with
    | direct => exact (match?_eq_direct_iff.mp found).1
    | inherited => exact (match?_eq_inherited_iff.mp found).1
  · intro applies
    by_cases itself : p.ReachesItself ρ c.resource
    · exact ⟨.direct, match?_eq_direct_iff.mpr ⟨applies, itself⟩⟩
    · exact ⟨.inherited, match?_eq_inherited_iff.mpr ⟨applies, itself⟩⟩

/-- Time only ever ends a match. -/
theorem match?_of_earlier {m : Match} (found : p.match? ρ c = some m) (earlier : t ≤ c.time) :
    p.match? ρ { c with time := t } = some m := by
  obtain ⟨concerns, as⟩ := match?_eq_some_iff.mp found
  refine match?_eq_some_iff.mpr ⟨?_, as⟩
  refine ⟨concerns.tenant, ?_, concerns.action, concerns.type⟩
  exact concerns.time.imp_right fun inForce e he => Instant.le_trans earlier (inForce e he)

theorem match?_of_no_reach (h : p.reach = none) (ρ' : Reach) :
    { p with reach := some ρ }.match? ρ' c = p.match? ρ c := by
  unfold match? resourceMatch?
  rw [h]
  rfl

/-- A request about just what a policy names, at the last time at which the policy is in force. -/
def sought (p : Policy) : DecisionContext :=
  { DecisionContext.request .anonymous "" ⟨none, p.resource, p.resource, ∅⟩
      (p.expiry.getD Instant.epoch) with
    tenant := p.tenant, action := p.action }

theorem concerns_sought (action : p.action.isSome) : p.Concerns p.sought := by
  obtain ⟨a, ha⟩ := Option.isSome_iff_exists.mp action
  refine ⟨fun t ht => .inr ht, .inr ?_, ⟨a, a, ha, ha, rfl⟩, ?_⟩
  · intro t ht
    have last : p.sought.time = t := congrArg (Option.getD · Instant.epoch) ht
    rw [last]
    exact Int.le_refl _
  · intro a b _ none
    cases none

/-- Which policies match any request at all. -/
theorem exists_match?_iff :
    (∃ c, (p.match? ρ c).isSome) ↔ p.action.isSome ∧ p.resource.isSome ∧
      (p.reach.getD ρ).isKnown = true ∧ (p.reach.getD ρ = .children → p.inherits = true) := by
  simp only [match?_isSome_iff]
  constructor
  · rintro ⟨c, applies⟩
    obtain ⟨a, -, action, -⟩ := applies.action
    obtain ⟨code, resource⟩ := resource_of_reached applies.reached
    refine ⟨by rw [action]; rfl, by rw [resource]; rfl, ?_⟩
    rcases applies.reached with itself | below
    · rcases itself.reach with reach | reach <;> simp [reach, Reach.isKnown]
    · refine ⟨?_, fun _ => below.inherits⟩
      rcases below.reach with reach | reach <;> rw [reach] <;> rfl
  · rintro ⟨action, resource, known, inherits⟩
    obtain ⟨code, resource⟩ := Option.isSome_iff_exists.mp resource
    refine ⟨p.sought, concerns_sought action, ?_⟩
    have named : ∃ a b, p.resource = some a ∧ p.sought.resource.code = some b ∧
        Text.toLower b = Text.toLower a := ⟨code, code, resource, resource, rfl⟩
    cases reach : p.reach.getD ρ with
    | self => exact .inl ⟨.inl reach, named⟩
    | selfAndChildren => exact .inl ⟨.inr reach, named⟩
    | children => exact .inr ⟨.inl reach, inherits reach, code, resource, .inr resource⟩
    | other => simp [reach, Reach.isKnown] at known

end

/-- When a policy matches, and how. A policy without a reach matches as one with the default, and
one that matches a request would have matched it earlier. -/
theorem match?_applies (ρ : Reach) (p : Policy) (c : DecisionContext) :
    ((p.match? ρ c).isSome ↔ p.Applies ρ c) ∧
      (p.match? ρ c = some .direct ↔ p.Applies ρ c ∧ p.ReachesItself ρ c.resource) ∧
      (p.match? ρ c = some .inherited ↔ p.Applies ρ c ∧ ¬p.ReachesItself ρ c.resource) ∧
      (p.reach = none → ∀ ρ', { p with reach := some ρ }.match? ρ' c = p.match? ρ c) ∧
      ∀ m, p.match? ρ c = some m → ∀ t ≤ c.time, p.match? ρ { c with time := t } = some m :=
  ⟨match?_isSome_iff, match?_eq_direct_iff, match?_eq_inherited_iff, match?_of_no_reach,
    fun _ found _ earlier => match?_of_earlier found earlier⟩

end DataAccess.Policy
