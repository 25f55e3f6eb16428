import DataAccess.Proofs.Sql.Lexing

/-!
# Precedence in SQL

How tokens are read as an expression: comparisons bind tighter than `AND`, `AND` binds tighter than
`OR`, and both associate to the left. Each relation is between the tokens ahead, the expression read
from them and the tokens left after it. At most one expression can be read from the whole of a text
(`Reading.unique`).
-/

namespace DataAccess.Sql

/-- The value of a marker; markers count from one. -/
def valueAt (vs : List Literal) : Nat → Option Literal
  | 0 => none
  | i + 1 => vs[i]?

inductive ColumnReading : List Token → Expr → List Token → Prop
  | bare {name : String} {rest : List Token} :
      ColumnReading (.name name :: rest) (.column none name) rest
  | qualified {qualifier name : String} {rest : List Token} :
      ColumnReading (.name qualifier :: .sign '.' :: .name name :: rest)
        (.column (some qualifier) name) rest

/-- The elements of a list, up to its closing parenthesis. -/
inductive ItemsReading (vs : List Literal) : List Token → List Expr → List Token → Prop
  | last {i : Nat} {l : Literal} {rest : List Token} (bound : valueAt vs i = some l) :
      ItemsReading vs (.marker i :: .sign ')' :: rest) [.literal l] rest
  | cons {i : Nat} {l : Literal} {ts rest : List Token} {es : List Expr}
      (bound : valueAt vs i = some l) (items : ItemsReading vs ts es rest) :
      ItemsReading vs (.marker i :: .sign ',' :: ts) (.literal l :: es) rest

/-- What is asked of an operand, read from the tokens after it. -/
inductive ConditionReading (vs : List Literal) (e : Expr) : List Token → Expr → List Token → Prop
  | eq {i : Nat} {l : Literal} {rest : List Token} (bound : valueAt vs i = some l) :
      ConditionReading vs e (.sign '=' :: .marker i :: rest) (.eq e (.literal l)) rest
  | isIn {ts rest : List Token} {es : List Expr} (items : ItemsReading vs ts es rest) :
      ConditionReading vs e (.keyword .isIn :: .sign '(' :: ts) (.isIn e es) rest
  | between {i j : Nat} {low high : Literal} {rest : List Token}
      (lowBound : valueAt vs i = some low) (highBound : valueAt vs j = some high) :
      ConditionReading vs e (.keyword .between :: .marker i :: .keyword .and :: .marker j :: rest)
        (.between e (.literal low) (.literal high)) rest
  | like {i : Nat} {pattern : String} {rest : List Token}
      (bound : valueAt vs i = some (.text pattern)) :
      ConditionReading vs e (.keyword .like :: .marker i :: rest) (.like e pattern) rest

/-- What binds tightest is read at the first level. -/
inductive Level where
  | operand
  | conjunction
  | disjunction

inductive Reading (vs : List Literal) : Level → List Token → Expr → List Token → Prop
  | comparison {ts us rest : List Token} {c e : Expr} (column : ColumnReading ts c us)
      (condition : ConditionReading vs c us e rest) : Reading vs .operand ts e rest
  | enclosed {ts rest : List Token} {e : Expr}
      (h : Reading vs .disjunction ts e (.sign ')' :: rest)) :
      Reading vs .operand (.sign '(' :: ts) e rest
  | operand {ts rest : List Token} {e : Expr} (h : Reading vs .operand ts e rest) :
      Reading vs .conjunction ts e rest
  | and {ts us rest : List Token} {l r : Expr}
      (left : Reading vs .conjunction ts l (.keyword .and :: us))
      (right : Reading vs .operand us r rest) : Reading vs .conjunction ts (.and l r) rest
  | conjunction {ts rest : List Token} {e : Expr} (h : Reading vs .conjunction ts e rest) :
      Reading vs .disjunction ts e rest
  | or {ts us rest : List Token} {l r : Expr}
      (left : Reading vs .disjunction ts l (.keyword .or :: us))
      (right : Reading vs .conjunction us r rest) : Reading vs .disjunction ts (.or l r) rest

/-- A text with values bound to its markers is read as an expression. -/
def Reads (vs : List Literal) (text : String) (e : Expr) : Prop :=
  ∃ ts, tokens? text.toList = some ts ∧ Reading vs .disjunction ts e []

section Unique

variable {vs : List Literal} {ts rest rest' : List Token} {e e' : Expr}

/-- The qualifier of a column is read wherever there is one. -/
theorem ColumnReading.unique (h : ColumnReading ts e rest) (h' : ColumnReading ts e' rest')
    (stop : rest.head? ≠ some (.sign '.')) (stop' : rest'.head? ≠ some (.sign '.')) :
    e = e' ∧ rest = rest' := by
  cases h with
  | bare =>
    cases h' with
    | bare => exact ⟨rfl, rfl⟩
    | qualified => exact absurd rfl stop
  | qualified =>
    cases h' with
    | bare => exact absurd rfl stop'
    | qualified => exact ⟨rfl, rfl⟩

theorem ItemsReading.unique {es es' : List Expr} (h : ItemsReading vs ts es rest)
    (h' : ItemsReading vs ts es' rest') : es = es' ∧ rest = rest' := by
  induction h generalizing es' with
  | last bound =>
    cases h' with
    | last bound' =>
      rw [Option.some.inj (bound.symm.trans bound')]
      exact ⟨rfl, rfl⟩
  | cons bound items ih =>
    cases h' with
    | cons bound' items' =>
      obtain ⟨rfl, rfl⟩ := ih items'
      rw [Option.some.inj (bound.symm.trans bound')]
      exact ⟨rfl, rfl⟩

theorem ConditionReading.unique {c : Expr} (h : ConditionReading vs c ts e rest)
    (h' : ConditionReading vs c ts e' rest') : e = e' ∧ rest = rest' := by
  cases h with
  | eq bound =>
    cases h' with
    | eq bound' =>
      rw [Option.some.inj (bound.symm.trans bound')]
      exact ⟨rfl, rfl⟩
  | isIn items =>
    cases h' with
    | isIn items' =>
      obtain ⟨rfl, rfl⟩ := items.unique items'
      exact ⟨rfl, rfl⟩
  | between lowBound highBound =>
    cases h' with
    | between lowBound' highBound' =>
      rw [Option.some.inj (lowBound.symm.trans lowBound'),
        Option.some.inj (highBound.symm.trans highBound')]
      exact ⟨rfl, rfl⟩
  | like bound =>
    cases h' with
    | like bound' =>
      cases Option.some.inj (bound.symm.trans bound')
      exact ⟨rfl, rfl⟩

/-- No condition starts with the point of a qualified column. -/
theorem ConditionReading.head?_ne {c : Expr} (h : ConditionReading vs c ts e rest) :
    ts.head? ≠ some (.sign '.') := by
  cases h <;> simp

/-- Joins an expression to what stands before it, if anything does. -/
def joined (join : Expr → Expr → Expr) : Option Expr → Expr → Expr
  | none, e => e
  | some l, e => join l e

/-- A place in a text, by what stands before it in the innermost parentheses: the disjunction up to
the last `OR` and the conjunction after it. -/
inductive Place where
  /-- An operand comes next. -/
  | before (d c : Option Expr)
  /-- An operand has been read. -/
  | after (d : Option Expr) (c : Expr)

/-- What stands before each open parenthesis, from the innermost outwards. -/
abbrev Enclosing := List (Option Expr × Option Expr)

/-- Reading from left to right. -/
inductive Scans (vs : List Literal) : Place → Enclosing → List Token → Expr → Prop
  | comparison {d c : Option Expr} {outer : Enclosing}
      {ts us rest : List Token} {column e result : Expr} (left : ColumnReading ts column us)
      (condition : ConditionReading vs column us e rest)
      (next : Scans vs (.after d (joined .and c e)) outer rest result) :
      Scans vs (.before d c) outer ts result
  | opened {d c : Option Expr} {outer : Enclosing} {ts : List Token}
      {result : Expr} (next : Scans vs (.before none none) ((d, c) :: outer) ts result) :
      Scans vs (.before d c) outer (.sign '(' :: ts) result
  | and {d : Option Expr} {c : Expr} {outer : Enclosing} {ts : List Token}
      {result : Expr} (next : Scans vs (.before d (some c)) outer ts result) :
      Scans vs (.after d c) outer (.keyword .and :: ts) result
  | or {d : Option Expr} {c : Expr} {outer : Enclosing} {ts : List Token}
      {result : Expr} (next : Scans vs (.before (some (joined .or d c)) none) outer ts result) :
      Scans vs (.after d c) outer (.keyword .or :: ts) result
  | closed {d d' c' : Option Expr} {c : Expr} {outer : Enclosing}
      {ts : List Token} {result : Expr}
      (next : Scans vs (.after d' (joined .and c' (joined .or d c))) outer ts result) :
      Scans vs (.after d c) ((d', c') :: outer) (.sign ')' :: ts) result
  | done {d : Option Expr} {c : Expr} : Scans vs (.after d c) [] [] (joined .or d c)

theorem Scans.unique {p : Place} {outer : Enclosing}
    (h : Scans vs p outer ts e) (h' : Scans vs p outer ts e') : e = e' := by
  induction h with
  | comparison left condition next ih =>
    cases h' with
    | comparison left' condition' next' =>
      obtain ⟨rfl, rfl⟩ := left.unique left' condition.head?_ne condition'.head?_ne
      obtain ⟨rfl, rfl⟩ := condition.unique condition'
      exact ih next'
    | opened next' => cases left
  | opened next ih =>
    cases h' with
    | comparison left' => cases left'
    | opened next' => exact ih next'
  | and next ih =>
    cases h' with
    | and next' => exact ih next'
  | or next ih =>
    cases h' with
    | or next' => exact ih next'
  | closed next ih =>
    cases h' with
    | closed next' => exact ih next'
  | done =>
    cases h'
    rfl

/-- How reading from left to right goes on behind an expression that is read at a level. -/
def Level.Follows (vs : List Literal) (rest : List Token) (result e : Expr)
    (outer : Enclosing) (ts : List Token) : Level → Prop
  | operand => ∀ d c, Scans vs (.after d (joined .and c e)) outer rest result →
      Scans vs (.before d c) outer ts result
  | conjunction => ∀ d, Scans vs (.after d e) outer rest result →
      Scans vs (.before d none) outer ts result
  | disjunction => (∀ d c, joined .or d c = e → Scans vs (.after d c) outer rest result) →
      Scans vs (.before none none) outer ts result

/-- What is read at a level is passed over from left to right. -/
theorem Reading.follows {level : Level} (h : Reading vs level ts e rest) :
    ∀ result outer, level.Follows vs rest result e outer ts := by
  induction h with
  | comparison column condition =>
    intro result outer d c next
    exact .comparison column condition next
  | enclosed h ih =>
    intro result outer d c next
    apply Scans.opened
    apply ih
    rintro d' c' rfl
    exact .closed next
  | operand h ih =>
    intro result outer d next
    exact ih result outer d none next
  | and left right ihl ihr =>
    intro result outer d next
    apply ihl
    apply Scans.and
    apply ihr
    exact next
  | conjunction h ih =>
    intro result outer next
    apply ih
    exact next none _ rfl
  | or left right ihl ihr =>
    intro result outer next
    apply ihl
    rintro d c rfl
    apply Scans.or
    apply ihr
    exact next _ _ rfl

/-- The whole of a text is read in one way at most. -/
theorem Reading.unique (h : Reading vs .disjunction ts e [])
    (h' : Reading vs .disjunction ts e' []) : e = e' := by
  have scans {f : Expr} (h : Reading vs .disjunction ts f []) :
      Scans vs (.before none none) [] ts f := by
    apply h.follows
    rintro d c rfl
    exact .done
  exact (scans h).unique (scans h')

end Unique

end DataAccess.Sql
