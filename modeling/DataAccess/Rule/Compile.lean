import DataAccess.Rule.Literal
import DataAccess.Rule.Operand
import DataAccess.Rule.Registry

/-!
# Compilation of rules

A rule set becomes the disjunction of its rules, by descending priority; a rule without predicates
takes no part. The log tells of every predicate and every rule, and ends with the fault if there
is one.
-/

namespace DataAccess

/-- The condition on a column for resolved operands. -/
def Predicate.leaf (field : String) (column : Column) (operator : Operator)
    (operands : List Value) : Except CompileFault Node :=
  match operator, operands with
  | .eq, [v] => do return .eq column (.literal (← v.literal .eq))
  | .isIn, v :: vs => do
    return .isIn column ((← (v :: vs).mapM (Value.literal .isIn)).map .literal)
  | .between, [low, high] =>
    if low.bounds high then do
      let l ← low.literal .between
      let h ← high.literal .between
      return .between column (.literal l) (.literal h)
    else .error (.betweenTypeMismatch field low.kind high.kind)
  | .like, [v] =>
    match v with
    | .text pattern =>
      if pattern = "" then .error (.emptyLikePattern field)
      else if isSafePattern pattern.toList then .ok (.like column pattern)
      else .error (.unsafeLikePattern field)
    | v => .error (.unsupportedLiteral .like (.kind v.kind))
  | operator, operands => .error (.arity operator field operands.length)

/-- What the compilation of a rule set depends on beside its rules. -/
structure CompileScope where
  settings : CompilerSettings
  requester : Requester
  fields : FieldLookup
  resource : String

namespace CompileScope

variable (k : CompileScope)

def column (field : String) : Except CompileFault Column :=
  match k.fields k.resource field with
  | some c => .ok c
  | none => .error (.unknownField k.resource field)

def predicate (p : Predicate) : Logged CompileFault Node := do
  let column ← .lift (k.column p.field)
  let operands ← Operand.resolveAll k.settings p.field k.requester p.values
  let node ← .lift (Predicate.leaf p.field column p.operator operands)
  .tell .info (p.operator.name ++ " on field '" ++ p.field ++ "' compiled")
  return node

/-- The condition of a rule, unless it has no predicates. -/
def rule (r : Rule) : Logged CompileFault (Option Node) := do
  let nodes ← Logged.each k.predicate r.predicates
  match Node.joinAll r.mode.combine nodes with
  | some node =>
    .tell .info ("rule priority " ++ toString r.priority.toInt ++ " compiled: " ++
      toString r.predicates.length ++ " predicate(s) joined by " ++ r.mode.name)
    return some node
  | none =>
    .tell .warn ("rule priority " ++ toString r.priority.toInt ++ " has no predicates")
    return none

/-- The condition of rules that come in their order of precedence. -/
def rules (rs : List Rule) : Logged CompileFault Node :=
  if rs.isEmpty then .fail (.emptyRuleSet k.resource) else do
    let nodes ← Logged.each k.rule rs
    match Node.joinAll .or (nodes.filterMap id) with
    | some node => return node
    | none => .fail (.noValidExpression k.resource)

end CompileScope

/-- A rule set that is ready to be rendered for any occurrence of its table. -/
structure Compiled where
  resource : String
  root : Node
  explain : Explain

structure CompileError where
  fault : CompileFault
  explain : Explain

def CompileError.message (e : CompileError) : String := e.fault.message

def RuleSet.compile (settings : CompilerSettings) (requester : Requester) (fields : FieldLookup)
    (s : RuleSet) : Except CompileError Compiled :=
  let run := CompileScope.rules ⟨settings, requester, fields, s.resource⟩ s.ordered
  match run.result with
  | .ok root => .ok ⟨s.resource, root, run.log⟩
  | .error fault => .error ⟨fault, run.log.push .error fault.message⟩

namespace RuleSet

variable {settings : CompilerSettings} {requester : Requester} {fields : FieldLookup} {s : RuleSet}

theorem compile_eq_ok_iff {c : Compiled} :
    s.compile settings requester fields = .ok c ↔
      CompileScope.rules ⟨settings, requester, fields, s.resource⟩ s.ordered =
        ⟨c.explain, .ok c.root⟩ ∧ c.resource = s.resource := by
  unfold compile
  obtain ⟨resource, root, explain⟩ := c
  rcases CompileScope.rules _ _ with ⟨log, _ | _⟩ <;> simp [eq_comm, and_comm]

theorem compile_eq_error_iff {e : CompileError} :
    s.compile settings requester fields = .error e ↔
      ∃ log, CompileScope.rules ⟨settings, requester, fields, s.resource⟩ s.ordered =
        ⟨log, .error e.fault⟩ ∧ e.explain = log.push .error e.fault.message := by
  unfold compile
  rcases CompileScope.rules _ _ with ⟨log, fault | root⟩
  · constructor
    · rintro ⟨⟩
      exact ⟨log, rfl, rfl⟩
    · obtain ⟨_, explain⟩ := e
      rintro ⟨_, ⟨⟩, eq⟩
      exact congrArg _ (congrArg _ eq.symm)
  · simp

end RuleSet

end DataAccess
