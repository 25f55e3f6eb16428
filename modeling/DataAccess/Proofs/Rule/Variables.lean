import DataAccess.Proofs.Rule.Operand
import DataAccess.Proofs.Rule.Precedence
import DataAccess.Rule.Compile

/-!
# Variables of rules

A compilation depends on the requester by the values of the variables that its rules name, where a
variable is an operand that is one placeholder. An attribute under the name of the variable for the
requester is never read (`compile_reads_variables`).
-/

namespace DataAccess

open Logged

namespace Operand

variable (s : CompilerSettings) (field : String) {a b : Requester}

theorem parts_congr {v : Value}
    (same : ∀ name, variableName? v = some name → a.lookup s name = b.lookup s name) :
    parts s a v = parts s b v := by
  rw [parts, parts]
  cases h : variableName? v with
  | none => rfl
  | some name =>
    dsimp only
    rw [same name h]

theorem resolveAll_congr {vs : List Value}
    (same : ∀ name ∈ vs.filterMap variableName?, a.lookup s name = b.lookup s name) :
    resolveAll s field a vs = resolveAll s field b vs := by
  rw [resolveAll_eq_gather, resolveAll_eq_gather]
  congr 1
  apply List.flatMap_congr
  intro v hv
  apply parts_congr
  intro name stands
  exact same name (List.mem_filterMap.2 ⟨v, hv, stands⟩)

end Operand

/-- The variables that operands stand for. -/
def Predicate.variables (p : Predicate) : List String := p.values.filterMap Operand.variableName?

def Rule.variables (r : Rule) : List String := r.predicates.flatMap Predicate.variables

def RuleSet.variables (s : RuleSet) : List String := s.rules.flatMap Rule.variables

namespace CompileScope

variable (k : CompileScope) {b : Requester}

/-- The scope with another requester. -/
def withRequester (b : Requester) : CompileScope := { k with requester := b }

theorem predicate_congr {p : Predicate}
    (same : ∀ name ∈ p.variables, k.requester.lookup k.settings name = b.lookup k.settings name) :
    k.predicate p = (k.withRequester b).predicate p := by
  unfold predicate
  rw [Operand.resolveAll_congr k.settings p.field same]
  rfl

theorem rule_congr {r : Rule}
    (same : ∀ name ∈ r.variables, k.requester.lookup k.settings name = b.lookup k.settings name) :
    k.rule r = (k.withRequester b).rule r := by
  unfold rule
  rw [each_congr]
  intro p hp
  apply predicate_congr
  intro name hname
  exact same name (List.mem_flatMap.2 ⟨p, hp, hname⟩)

theorem rules_congr {rs : List Rule} (same : ∀ name ∈ rs.flatMap Rule.variables,
    k.requester.lookup k.settings name = b.lookup k.settings name) :
    k.rules rs = (k.withRequester b).rules rs := by
  unfold rules
  rw [each_congr (g := (k.withRequester b).rule)]
  · rfl
  intro r hr
  apply rule_congr
  intro name hname
  exact same name (List.mem_flatMap.2 ⟨r, hr, hname⟩)

end CompileScope

/-- Requesters that cannot be told apart by the variables with given names: by the id, if the
variable for it is one of them, and by the attributes of all other names. -/
structure Requester.AgreesOn (a b : Requester) (s : CompilerSettings) (names : List String) :
    Prop where
  id : s.subjectVariable ∈ names → a.id = b.id
  attributes : ∀ name ∈ names, name ≠ s.subjectVariable →
    a.attributes.get? name = b.attributes.get? name

theorem Requester.AgreesOn.lookup {a b : Requester} {s : CompilerSettings} {names : List String}
    (h : a.AgreesOn b s names) {name : String} (hname : name ∈ names) :
    a.lookup s name = b.lookup s name := by
  unfold Requester.lookup
  split
  · rename_i subject
    subst subject
    rw [h.id hname]
  · rename_i other
    exact h.attributes name hname other

namespace RuleSet

variable (settings : CompilerSettings) (fields : FieldLookup) {s : RuleSet} {a b : Requester}

theorem compile_congr
    (same : ∀ name ∈ s.variables, a.lookup settings name = b.lookup settings name) :
    s.compile settings a fields = s.compile settings b fields := by
  unfold compile
  rw [CompileScope.rules_congr ⟨settings, a, fields, s.resource⟩]
  · rfl
  intro name hname
  obtain ⟨r, hr, hname⟩ := List.mem_flatMap.1 hname
  exact same name (List.mem_flatMap.2 ⟨r, mem_ordered.1 hr, hname⟩)

/-- Requesters that agree on the variables of the rules get one result. What is stored as an
attribute under the name of the variable for the requester changes nothing. -/
theorem compile_reads_variables (agree : a.AgreesOn b settings s.variables) :
    s.compile settings a fields = s.compile settings b fields ∧
      ∀ attributes : Dictionary Value,
        (∀ name, name ≠ settings.subjectVariable → attributes.get? name = a.attributes.get? name) →
        s.compile settings { a with attributes := attributes } fields =
          s.compile settings a fields := by
  constructor
  · apply compile_congr
    intro name hname
    exact agree.lookup hname
  · intro attributes same
    apply compile_congr
    intro name hname
    have agrees : Requester.AgreesOn { a with attributes := attributes } a settings s.variables :=
      ⟨fun _ => rfl, fun name _ other => same name other⟩
    exact agrees.lookup hname

/-- An anonymous requester with an attribute under the name of the variable for its id is one
without that attribute, and texts inside an array are no variables. -/
theorem compile_reads_variables_of_anonymous :
    let fields : FieldLookup := fun _ field => some ⟨none, field⟩
    let s : RuleSet := ⟨"orders", [⟨0, some .or,
      [⟨"owner", .eq, [.text "$\x7buserId\x7d"]⟩,
        ⟨"dept", .isIn, [.text "$\x7bdept\x7d", .array [.text "$\x7bregion\x7d"]]⟩]⟩]⟩
    let a := Requester.anonymous.withAttribute "dept" (.text "north")
    let b := (a.withAttribute "userId" (.text "root")).withAttribute "region" (.text "eu")
    a.AgreesOn b {} s.variables ∧ s.compile {} a fields = s.compile {} b fields ∧
      s.compile {} (a.withAttribute "userId" (.text "root")) fields = s.compile {} a fields := by
  intro fields s a b
  have names : s.variables = ["userId", "dept"] := by decide
  have agree : a.AgreesOn b {} s.variables := by
    constructor
    · intro _
      rfl
    · intro name hname other
      have region : "region" ≠ name := by
        rintro rfl
        rw [names] at hname
        revert hname
        decide
      simp only [b, Requester.withAttribute, Dictionary.get?_insert, if_neg region,
        if_neg other.symm]
  obtain ⟨same, stored⟩ := compile_reads_variables {} fields agree
  refine ⟨agree, same, stored _ ?_⟩
  intro name other
  rw [Dictionary.get?_insert, if_neg other.symm]

end RuleSet

end DataAccess
