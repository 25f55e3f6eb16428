import DataAccess.Proofs.Rule.Meaning
import DataAccess.Proofs.Rule.Resolution
import Mathlib.Data.List.Perm.Basic

/-!
# Accounting

The log of a compilation that succeeds consists of the reports on the operands of its predicates,
an entry for each predicate and an entry for each rule (`log_of_rules`). A strict compilation logs
no error before its fault, and the fault closes the log of any compilation that fails
(`compile_accounts`).
-/

namespace DataAccess

namespace Explain

variable {x : Explain} {level : Level}

theorem atLevel_eq_nil_iff : x.atLevel level = [] ↔ ∀ e ∈ x, e.level ≠ level := by
  simp [atLevel]

theorem atLevel_push {message : String} :
    (x.push level message).atLevel level = x.atLevel level ++ [⟨level, message⟩] := by
  simp [atLevel, push]

end Explain

namespace Operand

namespace Visit

def isNull : Visit → Bool
  | value _ .null => true
  | _ => false

/-- A map, or a variable without a value. -/
def isLeftOut : Visit → Bool
  | value _ (.map _) => true
  | value _ _ => false
  | missing _ => true

/-- Nulls are reported with a warning, and values left out with an error. -/
theorem level_report? (field : String) (x : Visit) (level : Explain.Level) :
    ((x.report? field).map fun e => decide (e.level = level)).getD false =
      match level with
      | .info => false
      | .warn => x.isNull
      | .error => x.isLeftOut := by
  cases x with
  | missing name => cases level <;> rfl
  | value depth v => cases v <;> cases level <;> rfl

/-- A strict reading stops where it would have to leave something out. -/
theorem level_report?_of_strict {s : CompilerSettings} (strict : s.strict = true) {field : String}
    {x : Visit} (passed : x.fault? s field = none) :
    ∀ e ∈ x.report? field, e.level ≠ .error := by
  cases x with
  | missing name => simp [fault?, strict] at passed
  | value depth v =>
    cases v with
    | map es => simp [fault?, strict] at passed
    | _ => simp [report?]

end Visit

/-- A strict reading logs no error. -/
theorem resolveAll_logs {s : CompilerSettings} (strict : s.strict = true) (field : String)
    (r : Requester) (operands : List Value) :
    Logged.Logs (·.level ≠ .error) (resolveAll s field r operands) := by
  rw [resolveAll_eq]
  intro e he
  obtain ⟨x, hx, reported⟩ := List.mem_filterMap.mp he
  have passed : x.fault? s field = none := by simpa using List.mem_takeWhile_imp hx
  exact Visit.level_report?_of_strict strict passed e reported

end Operand

namespace Predicate

/-- What reading the operands meets. -/
def visits (s : CompilerSettings) (r : Requester) (p : Predicate) : List Operand.Visit :=
  p.values.flatMap (Operand.visits s r)

def reports (s : CompilerSettings) (r : Requester) (p : Predicate) : Explain :=
  (p.visits s r).filterMap (Operand.Visit.report? p.field)

def entry (p : Predicate) : Explain.Entry :=
  ⟨.info, p.operator.name ++ " on field '" ++ p.field ++ "' compiled"⟩

end Predicate

/-- The entry that closes the part of the log on a rule. -/
def Rule.entry (r : Rule) : Explain.Entry :=
  if r.predicates = [] then
    ⟨.warn, "rule priority " ++ toString r.priority.toInt ++ " has no predicates"⟩
  else
    ⟨.info, "rule priority " ++ toString r.priority.toInt ++ " compiled: " ++
      toString r.predicates.length ++ " predicate(s) joined by " ++ r.mode.name⟩

theorem Rule.level_entry (r : Rule) :
    r.entry.level = if r.predicates = [] then .warn else .info := by
  rw [entry]
  split <;> rfl

namespace CompileScope

variable (k : CompileScope)

def predicateLog (p : Predicate) : Explain := p.reports k.settings k.requester ++ [p.entry]

def ruleLog (r : Rule) : Explain := r.predicates.flatMap k.predicateLog ++ [r.entry]

variable {k}

/-! ## The log of a success -/

theorem predicate_of_compiles {p : Predicate} {n : Node} (h : k.Compiles p n) :
    k.predicate p = ⟨k.predicateLog p, .ok n⟩ := by
  obtain ⟨c, found, vs, resolved, leaf⟩ := compiles_iff.mp h
  rw [predicate_eq found resolved leaf, (Operand.scalars_of_resolveAll resolved).2]
  rfl

theorem rule_of_result {r : Rule} {o : Option Node} (h : (k.rule r).result = .ok o) :
    k.rule r = ⟨k.ruleLog r, .ok o⟩ := by
  obtain ⟨ns, conditions, rfl⟩ := result_rule_eq_ok_iff.mp h
  have nodes : Logged.each k.predicate r.predicates =
      ⟨r.predicates.flatMap k.predicateLog, .ok ns⟩ :=
    Logged.each_eq (conditions.imp fun _ _ => predicate_of_compiles)
  rw [rule, nodes, Logged.bind_ok rfl, ruleLog]
  rcases r with ⟨priority, mode, _ | ⟨p, ps⟩⟩
  · cases conditions
    rfl
  · cases conditions
    rfl

/-- The log of a success tells of each rule in turn. -/
theorem log_of_rules {rs : List Rule} {root : Node} (h : (k.rules rs).result = .ok root) :
    (k.rules rs).log = rs.flatMap k.ruleLog := by
  have present : rs ≠ [] := by
    rintro rfl
    cases h
  rw [result_rules present, bind_eq_ok_iff] at h
  obtain ⟨os, compiled, -⟩ := h
  have nodes : Logged.each k.rule rs = ⟨rs.flatMap k.ruleLog, .ok os⟩ :=
    Logged.each_eq ((mapM_eq_ok_iff.mp compiled).imp fun _ _ => rule_of_result)
  rw [rules, if_neg (by simpa using present), nodes, Logged.bind_ok rfl]
  split
  · exact List.append_nil _
  · exact List.append_nil _

theorem flatMap_concat_perm {α β : Type} (f : α → List β) (g : α → β) (as : List α) :
    (as.flatMap fun a => f a ++ [g a]).Perm (as.flatMap f ++ as.map g) := by
  rw [List.map_eq_flatMap]
  exact (List.flatMap_append_perm as f fun a => [g a]).symm

/-- The entries of that log by what they are about, in whatever order the rules come. -/
theorem flatMap_ruleLog_perm {ordered rs : List Rule} (perm : ordered.Perm rs) :
    (ordered.flatMap k.ruleLog).Perm
      ((rs.flatMap Rule.predicates).flatMap (Predicate.reports k.settings k.requester) ++
        (rs.flatMap Rule.predicates).map Predicate.entry ++ rs.map Rule.entry) := by
  calc
    (ordered.flatMap k.ruleLog).Perm (rs.flatMap k.ruleLog) := perm.flatMap_right _
    List.Perm _ (rs.flatMap (fun r => r.predicates.flatMap k.predicateLog) ++ rs.map Rule.entry) :=
      flatMap_concat_perm _ Rule.entry rs
    _ = (rs.flatMap Rule.predicates).flatMap k.predicateLog ++ rs.map Rule.entry := by
      rw [List.flatMap_assoc]
    List.Perm _ _ := (flatMap_concat_perm _ Predicate.entry _).append_right _

/-! ## The log of a strict compilation -/

section
variable (strict : k.settings.strict = true)
include strict

theorem predicate_logs (p : Predicate) : Logged.Logs (·.level ≠ .error) (k.predicate p) := by
  refine .bind (.lift _) fun column => ?_
  refine .bind (Operand.resolveAll_logs strict p.field k.requester p.values) fun operands => ?_
  refine .bind (.lift _) fun node => ?_
  exact .bind (.tell Explain.Level.noConfusion) fun _ => .pure node

theorem rule_logs (r : Rule) : Logged.Logs (·.level ≠ .error) (k.rule r) := by
  refine .bind (.each (predicate_logs strict) r.predicates) fun nodes => ?_
  split
  · exact .bind (.tell Explain.Level.noConfusion) fun _ => .pure _
  · exact .bind (.tell Explain.Level.noConfusion) fun _ => .pure _

theorem rules_logs (rs : List Rule) : Logged.Logs (·.level ≠ .error) (k.rules rs) := by
  unfold rules
  split
  · exact .fail _
  · refine .bind (.each (rule_logs strict) rs) fun nodes => ?_
    split
    · exact .pure _
    · exact .fail _

end

end CompileScope

/-! ## Entries by their level -/

section
variable (s : CompilerSettings) (r : Requester) (ps : List Predicate) (level : Explain.Level)

theorem Predicate.countP_reports :
    (ps.flatMap (reports s r)).countP (·.level = level) =
      (ps.flatMap (visits s r)).countP fun x =>
        match level with
        | .info => false
        | .warn => x.isNull
        | .error => x.isLeftOut := by
  rw [List.countP_flatMap, List.countP_flatMap]
  congr 2
  funext p
  simp only [Function.comp_apply, reports, List.countP_filterMap, Operand.Visit.level_report?]

theorem Predicate.countP_entry :
    (ps.map entry).countP (·.level = level) = if level = .info then ps.length else 0 := by
  cases level <;> simp [List.countP_map, entry, Function.comp_def]

end

theorem Rule.countP_entry (rs : List Rule) (level : Explain.Level) :
    (rs.map entry).countP (·.level = level) =
      match level with
      | .info => rs.countP (·.predicates ≠ [])
      | .warn => rs.countP (·.predicates = [])
      | .error => 0 := by
  simp only [List.countP_map, Function.comp_def, level_entry]
  cases level with
  | info | warn =>
    apply List.countP_congr
    intro r _
    by_cases empty : r.predicates = [] <;> simp [empty]
  | error =>
    apply List.countP_eq_zero.mpr
    intro r _
    split <;> simp

namespace RuleSet

variable {settings : CompilerSettings} {requester : Requester} {fields : FieldLookup} {s : RuleSet}

theorem length_atLevel_of_compile {c : Compiled} (h : s.compile settings requester fields = .ok c)
    (level : Explain.Level) :
    (c.explain.atLevel level).length =
      ((s.rules.flatMap Rule.predicates).flatMap (Predicate.reports settings requester)).countP
          (·.level = level) +
        ((s.rules.flatMap Rule.predicates).map Predicate.entry).countP (·.level = level) +
        (s.rules.map Rule.entry).countP (·.level = level) := by
  obtain ⟨eq, -⟩ := compile_eq_ok_iff.mp h
  have log := CompileScope.log_of_rules (congrArg Logged.result eq)
  rw [eq] at log
  have perm := CompileScope.flatMap_ruleLog_perm
    (k := ⟨settings, requester, fields, s.resource⟩) s.ordered_perm
  rw [← log] at perm
  rw [Explain.atLevel, ← List.countP_eq_length_filter, perm.countP_eq, List.countP_append,
    List.countP_append]

/-- The log of a compilation that succeeds has an information for each predicate and for each rule
with predicates, a warning for each other rule and each null among the operands, and an error for
each value left out. The log of one that fails is closed by the fault. Strictly, nothing is left
out, and no other error is logged. -/
theorem compile_accounts (settings : CompilerSettings) (requester : Requester)
    (fields : FieldLookup) (s : RuleSet) :
    let predicates := s.rules.flatMap Rule.predicates
    let met := predicates.flatMap (Predicate.visits settings requester)
    (∀ c, s.compile settings requester fields = .ok c →
      (c.explain.atLevel .info).length =
        predicates.length + s.rules.countP (·.predicates ≠ []) ∧
      (c.explain.atLevel .warn).length =
        s.rules.countP (·.predicates = []) + met.countP Operand.Visit.isNull ∧
      (c.explain.atLevel .error).length = met.countP Operand.Visit.isLeftOut ∧
      (settings.strict = true → c.explain.atLevel .error = [])) ∧
    ∀ e, s.compile settings requester fields = .error e →
      e.explain.getLast? = some ⟨.error, e.fault.message⟩ ∧
      (settings.strict = true → e.explain.atLevel .error = [⟨.error, e.fault.message⟩]) := by
  intro predicates met
  have quiet (strict : settings.strict = true) := CompileScope.rules_logs
    (k := ⟨settings, requester, fields, s.resource⟩) strict s.ordered
  refine ⟨?success, ?failure⟩
  case success =>
    intro c succeeded
    have count := length_atLevel_of_compile succeeded
    simp only [Predicate.countP_reports, Predicate.countP_entry, Rule.countP_entry] at count
    refine ⟨?infos, ?warnings, ?errors, ?none⟩
    case infos => simpa [predicates, List.length_flatMap] using count .info
    case warnings => simpa [Nat.add_comm] using count .warn
    case errors => simpa using count .error
    case none =>
      intro strict
      have quiet := quiet strict
      rw [(compile_eq_ok_iff.mp succeeded).1] at quiet
      exact Explain.atLevel_eq_nil_iff.mpr quiet
  case failure =>
    intro e failed
    obtain ⟨log, eq, closed⟩ := compile_eq_error_iff.mp failed
    rw [closed]
    refine ⟨List.getLast?_concat, ?_⟩
    intro strict
    have quiet := quiet strict
    rw [eq] at quiet
    rw [Explain.atLevel_push, Explain.atLevel_eq_nil_iff.mpr quiet]
    rfl

end RuleSet

end DataAccess
