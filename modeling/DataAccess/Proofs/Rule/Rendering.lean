import DataAccess.Proofs.Logged
import DataAccess.Proofs.Text.Trim
import DataAccess.Rule.Node

/-!
# Rendering of trees

A tree attaches to occurrences of the tables that its columns are pinned to, and to no others. All
that an occurrence adds to the expression are the qualifiers of the columns (`render_attaches`).
-/

namespace DataAccess

namespace Sql.Expr

/-- The qualifiers of the columns that conditions are on, from left to right. -/
def qualifiers : Expr → List String
  | column q _ => q.toList
  | literal _ => []
  | and l r => l.qualifiers ++ r.qualifiers
  | or l r => l.qualifiers ++ r.qualifiers
  | eq e _ => e.qualifiers
  | isIn e _ => e.qualifiers
  | between e _ _ => e.qualifiers
  | like e _ => e.qualifiers

/-- Writes another qualifier for a given one on the columns that conditions are on. -/
def requalify (a b : String) : Expr → Expr
  | column q name => column (q.map fun s => if s = a then b else s) name
  | literal l => literal l
  | and l r => and (l.requalify a b) (r.requalify a b)
  | or l r => or (l.requalify a b) (r.requalify a b)
  | eq e value => eq (e.requalify a b) value
  | isIn e items => isIn (e.requalify a b) items
  | between e low high => between (e.requalify a b) low high
  | like e pattern => like (e.requalify a b) pattern

mutual

/-- Writes another qualifier for a given one on all columns, those of operands included. -/
def requalifyAll (a b : String) : Expr → Expr
  | column q name => column (q.map fun s => if s = a then b else s) name
  | literal l => literal l
  | and l r => and (l.requalifyAll a b) (r.requalifyAll a b)
  | or l r => or (l.requalifyAll a b) (r.requalifyAll a b)
  | eq e value => eq (e.requalifyAll a b) (value.requalifyAll a b)
  | isIn e items => isIn (e.requalifyAll a b) (requalifyEach a b items)
  | between e low high =>
    between (e.requalifyAll a b) (low.requalifyAll a b) (high.requalifyAll a b)
  | like e pattern => like (e.requalifyAll a b) pattern

def requalifyEach (a b : String) : List Expr → List Expr
  | [] => []
  | e :: es => e.requalifyAll a b :: requalifyEach a b es

end

variable {a b : String}

theorem requalifyAll_of_isLiteral {e : Expr} (h : e.isLiteral) : e.requalifyAll a b = e := by
  cases e with
  | literal l => simp only [requalifyAll]
  | _ => cases h

theorem requalifyEach_of_isLiteral {es : List Expr} (h : ∀ e ∈ es, e.isLiteral) :
    requalifyEach a b es = es := by
  induction es with
  | nil => simp only [requalifyEach]
  | cons e es ih =>
    rw [List.forall_mem_cons] at h
    rw [requalifyEach, requalifyAll_of_isLiteral h.1, ih h.2]

end Sql.Expr

namespace Table

variable {t : Table} {a : String}

/-- An occurrence goes by an alias that is not blank. -/
def Aliased (t : Table) (a : String) : Prop :=
  ∃ s, t.aliasName = some s ∧ Text.trim s = a ∧ a ≠ ""

theorem alias?_eq_some_iff : t.alias? = some a ↔ t.Aliased a := by
  simp only [alias?, Aliased, Option.filter_eq_some_iff, Option.map_eq_some_iff, decide_eq_true_eq]
  constructor
  · intro h
    obtain ⟨⟨s, named, trimmed⟩, nonblank⟩ := h
    exact ⟨s, named, trimmed, nonblank⟩
  · intro h
    obtain ⟨s, named, trimmed, nonblank⟩ := h
    exact ⟨⟨s, named, trimmed⟩, nonblank⟩

theorem alias?_eq_none_iff : t.alias? = none ↔ ∀ a, ¬t.Aliased a := by
  simp only [← alias?_eq_some_iff, Option.eq_none_iff_forall_ne_some, ne_eq]

theorem Aliased.trim_ne_empty (h : t.Aliased a) : Text.trim a ≠ "" := by
  obtain ⟨s, -, rfl, nonblank⟩ := h
  rwa [Text.trim_trim]

end Table

namespace Column

variable {c : Column} {t : Table} {a table : String}

/-- A column is pinned to a table whose name is not blank. -/
def PinnedTo (c : Column) (table : String) : Prop := c.table = some table ∧ Text.trim table ≠ ""

/-- A column fits the occurrences of every table, or of the one that it is pinned to. Names are
compared after trimming and in lower case. -/
def Fits (c : Column) (t : Table) : Prop :=
  ∀ table, c.PinnedTo table → Text.toLower (Text.trim table) = Text.toLower (Text.trim t.name)

/-- The qualifier of a column in an occurrence of a table. -/
inductive Qualified (c : Column) (t : Table) : Option String → Prop
  | byAlias {a : String} (named : t.Aliased a) : Qualified c t (some a)
  | byTable {table : String} (unnamed : ∀ a, ¬t.Aliased a) (pinned : c.PinnedTo table) :
      Qualified c t (some (Text.trim t.name))
  | bare (unnamed : ∀ a, ¬t.Aliased a) (loose : ∀ table, ¬c.PinnedTo table) : Qualified c t none

theorem pin?_eq_some_iff : c.pin? = some table ↔ c.PinnedTo table := by
  rw [pin?, Option.filter_eq_some_iff, PinnedTo, ne_eq, Text.trim_eq_empty_iff, Bool.not_eq_true',
    Bool.not_eq_true]

theorem pin?_eq_none_iff : c.pin? = none ↔ ∀ table, ¬c.PinnedTo table := by
  simp only [← pin?_eq_some_iff, Option.eq_none_iff_forall_ne_some, ne_eq]

theorem PinnedTo.unique {table' : String} (h : c.PinnedTo table) (h' : c.PinnedTo table') :
    table = table' :=
  Option.some.inj (h.1.symm.trans h'.1)

theorem PinnedTo.fits_iff (h : c.PinnedTo table) :
    c.Fits t ↔ normalizeTableName table = normalizeTableName t.name := by
  constructor
  · intro fits
    exact fits table h
  · intro eq table' h'
    rw [← h.unique h']
    exact eq

theorem fits_congr {u : Table} (same : u.name = t.name) : c.Fits u ↔ c.Fits t := by
  simp only [Fits, same]

/-- The qualifier that a column gets. -/
def qualifier (c : Column) (t : Table) : Option String :=
  match t.alias?, c.pin? with
  | some a, _ => some a
  | none, some _ => some (Text.trim t.name)
  | none, none => none

theorem qualified_qualifier (c : Column) (t : Table) : c.Qualified t (c.qualifier t) := by
  unfold qualifier
  split
  · rename_i named
    exact .byAlias (Table.alias?_eq_some_iff.mp named)
  · rename_i unnamed pinned
    exact .byTable (Table.alias?_eq_none_iff.mp unnamed) (pin?_eq_some_iff.mp pinned)
  · rename_i unnamed loose
    exact .bare (Table.alias?_eq_none_iff.mp unnamed) (pin?_eq_none_iff.mp loose)

theorem qualifier_of_aliased (h : t.Aliased a) : c.qualifier t = some a := by
  rw [qualifier, Table.alias?_eq_some_iff.mpr h]

theorem render_of_fits (fits : c.Fits t) : c.render t = .ok (.column (c.qualifier t) c.name) := by
  unfold render qualifier
  cases pin : c.pin? with
  | none => cases t.alias? <;> rfl
  | some table =>
    rw [(pin?_eq_some_iff.mp pin).fits_iff] at fits
    simp only [fits]
    cases t.alias? <;> rfl

theorem render_of_not_fits (foreign : ¬c.Fits t) :
    ∃ table, c.PinnedTo table ∧ c.render t = .error (.crossTable c.name table t.name) := by
  unfold render
  cases pin : c.pin? with
  | none => exact absurd (fun table h => absurd h (pin?_eq_none_iff.mp pin table)) foreign
  | some table =>
    have pinned := pin?_eq_some_iff.mp pin
    rw [pinned.fits_iff] at foreign
    exact ⟨table, pinned, if_neg foreign⟩

theorem render_eq_ok_iff {e : Sql.Expr} :
    c.render t = .ok e ↔ c.Fits t ∧ .column (c.qualifier t) c.name = e := by
  by_cases fits : c.Fits t
  · simp [render_of_fits fits, fits]
  · obtain ⟨table, -, failed⟩ := render_of_not_fits fits
    simp [failed, fits]

theorem render_eq_error_iff {e : RenderError} :
    c.render t = .error e ↔
      ¬c.Fits t ∧ ∃ table, c.PinnedTo table ∧ .crossTable c.name table t.name = e := by
  by_cases fits : c.Fits t
  · simp [render_of_fits fits, fits]
  · obtain ⟨table, pinned, failed⟩ := render_of_not_fits fits
    rw [failed, Except.error.injEq]
    constructor
    · intro eq
      exact ⟨fits, table, pinned, eq⟩
    · intro h
      obtain ⟨-, table', pinned', eq⟩ := h
      rwa [pinned.unique pinned']

/-- The qualifier of a column that fits is never blank. -/
theorem Fits.trim_ne_empty (fits : c.Fits t) {q : String} (h : c.qualifier t = some q) :
    Text.trim q ≠ "" := by
  have qualified := qualified_qualifier c t
  rw [h] at qualified
  cases qualified with
  | byAlias named => exact named.trim_ne_empty
  | @byTable table unnamed pinned =>
    intro blank
    rw [Text.trim_trim] at blank
    have same := fits table pinned
    rw [blank, Text.toLower_eq_empty_iff.mpr rfl, Text.toLower_eq_empty_iff] at same
    exact pinned.2 same

end Column

namespace Node

variable {n : Node} {t u : Table} {a b : String} {e : Sql.Expr} {q : Column → Option String}

/-- The expression that a node makes when its columns have given qualifiers. -/
def qualify (q : Column → Option String) : Node → Sql.Expr
  | and l r => .and (l.qualify q) (r.qualify q)
  | or l r => .or (l.qualify q) (r.qualify q)
  | eq c value => .eq (.column (q c) c.name) value
  | isIn c values => .isIn (.column (q c) c.name) values
  | between c low high => .between (.column (q c) c.name) low high
  | like c pattern => .like (.column (q c) c.name) pattern

/-- All values that a node compares with are literals. -/
def OfLiterals : Node → Prop
  | and l r => l.OfLiterals ∧ r.OfLiterals
  | or l r => l.OfLiterals ∧ r.OfLiterals
  | eq _ value => value.isLiteral
  | isIn _ values => ∀ v ∈ values, v.isLiteral
  | between _ low high => low.isLiteral ∧ high.isLiteral
  | like _ _ => True

theorem qualifiers_qualify : (n.qualify q).qualifiers = n.columns.filterMap q := by
  induction n with
  | and l r ihl ihr | or l r ihl ihr =>
    rw [qualify, Sql.Expr.qualifiers, ihl, ihr, columns, List.filterMap_append]
  | _ c => cases h : q c <;> simp [qualify, columns, Sql.Expr.qualifiers, h]

theorem requalify_qualify :
    (n.qualify q).requalify a b = n.qualify fun c => (q c).map fun s => if s = a then b else s := by
  induction n with
  | and l r ihl ihr | or l r ihl ihr => rw [qualify, Sql.Expr.requalify, ihl, ihr, qualify]
  | _ => rfl

/-- Beside literals there are no other columns than those that conditions are on. -/
theorem requalifyAll_qualify (literals : n.OfLiterals) :
    (n.qualify q).requalifyAll a b = (n.qualify q).requalify a b := by
  induction n with
  | and l r ihl ihr | or l r ihl ihr =>
    rw [qualify, Sql.Expr.requalifyAll, Sql.Expr.requalify, ihl literals.1, ihr literals.2]
  | eq c value =>
    rw [qualify, Sql.Expr.requalifyAll, Sql.Expr.requalifyAll_of_isLiteral literals,
      Sql.Expr.requalifyAll]
    rfl
  | isIn c values =>
    rw [qualify, Sql.Expr.requalifyAll, Sql.Expr.requalifyEach_of_isLiteral literals,
      Sql.Expr.requalifyAll]
    rfl
  | between c low high =>
    rw [qualify, Sql.Expr.requalifyAll, Sql.Expr.requalifyAll_of_isLiteral literals.1,
      Sql.Expr.requalifyAll_of_isLiteral literals.2, Sql.Expr.requalifyAll]
    rfl
  | like c pattern =>
    rw [qualify, Sql.Expr.requalifyAll, Sql.Expr.requalifyAll]
    rfl

/-- A node for a single column renders as the column does. -/
theorem restrict_endAlike (c : Column) (t : Table) (restrict : Sql.Expr → Sql.Expr) :
    EndAlike (fun e _ => e = restrict (.column (c.qualifier t) c.name))
      (do return restrict (← c.render t)) ([c].mapM (·.render t)) := by
  rw [List.mapM_cons, List.mapM_nil]
  cases h : c.render t with
  | error e => exact .error e
  | ok e =>
    obtain ⟨-, rfl⟩ := Column.render_eq_ok_iff.mp h
    exact .ok rfl

/-- Rendering fails where the first of the columns does that fails, from left to right. -/
theorem render_endAlike (n : Node) (t : Table) :
    EndAlike (fun e _ => e = n.qualify (·.qualifier t)) (n.render t)
      (n.columns.mapM (·.render t)) := by
  induction n with
  | and l r ihl ihr | or l r ihl ihr =>
    rw [columns, List.mapM_append]
    refine ihl.bind fun _ _ left => ihr.bind fun _ _ right => .ok ?_
    rw [left, right, qualify]
  | eq c value => exact restrict_endAlike c t (.eq · value)
  | isIn c values => exact restrict_endAlike c t (.isIn · values)
  | between c low high => exact restrict_endAlike c t (.between · low high)
  | like c pattern => exact restrict_endAlike c t (.like · pattern)

theorem exists_render_iff : (∃ e, n.render t = .ok e) ↔ ∀ c ∈ n.columns, c.Fits t := by
  simp only [(render_endAlike n t).exists_ok_iff, mapM_eq_ok_iff, exists_forall₂_iff,
    Column.render_eq_ok_iff, exists_and_left, exists_eq', and_true]

theorem render_eq_error_iff {e : RenderError} :
    n.render t = .error e ↔ ∃ before c after, n.columns = before ++ c :: after ∧
      (∀ b ∈ before, b.Fits t) ∧ ¬c.Fits t ∧
        ∃ table, c.PinnedTo table ∧ .crossTable c.name table t.name = e := by
  simp only [(render_endAlike n t).eq_error_iff, mapM_eq_error_iff, Column.render_eq_ok_iff,
    exists_and_left, exists_eq', and_true, Column.render_eq_error_iff]

theorem render_of_fits (fits : ∀ c ∈ n.columns, c.Fits t) :
    n.render t = .ok (n.qualify (·.qualifier t)) := by
  obtain ⟨e, rendered⟩ := exists_render_iff.mpr fits
  obtain ⟨es, -, eq⟩ := (render_endAlike n t).exists_of_ok rendered
  rw [rendered, eq]

theorem render_eq_ok_iff :
    n.render t = .ok e ↔ (∀ c ∈ n.columns, c.Fits t) ∧ e = n.qualify (·.qualifier t) := by
  constructor
  · intro rendered
    have fits := exists_render_iff.mp ⟨e, rendered⟩
    rw [render_of_fits fits] at rendered
    exact ⟨fits, (Except.ok.inj rendered).symm⟩
  · intro h
    obtain ⟨fits, rfl⟩ := h
    exact render_of_fits fits

theorem qualifiers_of_render (h : n.render t = .ok e) : ∀ q ∈ e.qualifiers, Text.trim q ≠ "" := by
  obtain ⟨fits, rfl⟩ := render_eq_ok_iff.mp h
  rw [qualifiers_qualify]
  intro q hq
  obtain ⟨c, hc, qualifies⟩ := List.mem_filterMap.mp hq
  exact (fits c hc).trim_ne_empty qualifies

/-- Under an alias all columns have the same qualifier. -/
theorem qualify_of_aliased (h : t.Aliased a) :
    n.qualify (·.qualifier t) = n.qualify fun _ => some a := by
  congr
  funext c
  exact Column.qualifier_of_aliased h

theorem render_realias (same : u.name = t.name) (ha : t.Aliased a) (hb : u.Aliased b)
    (h : n.render t = .ok e) : n.render u = .ok (e.requalify a b) := by
  obtain ⟨fits, rfl⟩ := render_eq_ok_iff.mp h
  rw [qualify_of_aliased ha, requalify_qualify, Option.map_some, if_pos rfl,
    ← qualify_of_aliased hb]
  apply render_of_fits
  intro c hc
  exact (Column.fits_congr same).mpr (fits c hc)

theorem requalifyAll_of_render (h : n.render t = .ok e) (literals : n.OfLiterals) :
    e.requalifyAll a b = e.requalify a b := by
  obtain ⟨-, rfl⟩ := render_eq_ok_iff.mp h
  exact requalifyAll_qualify literals

/-- How a node renders for an occurrence of a table. -/
structure Attaches (n : Node) (t : Table) : Prop where
  succeeds : (∃ e, n.render t = .ok e) ↔ ∀ c ∈ n.columns, c.Fits t
  fails : ∀ e, n.render t = .error e ↔ ∃ before c after, n.columns = before ++ c :: after ∧
    (∀ b ∈ before, b.Fits t) ∧ ¬c.Fits t ∧
      ∃ table, c.PinnedTo table ∧ .crossTable c.name table t.name = e
  keeps : ∀ e, n.render t = .ok e → ∃ q, (∀ c : Column, c.Qualified t (q c)) ∧ e = n.qualify q
  visible : ∀ e, n.render t = .ok e → ∀ q ∈ e.qualifiers, Text.trim q ≠ ""
  anyAlias : ∀ u : Table, u.name = t.name →
    ((∃ e, n.render u = .ok e) ↔ ∃ e, n.render t = .ok e)
  realiases : ∀ (u : Table) (a b : String), u.name = t.name → t.Aliased a → u.Aliased b →
    ∀ e, n.render t = .ok e → n.render u = .ok (e.requalify a b) ∧
      (n.OfLiterals → n.render u = .ok (e.requalifyAll a b))

/-- A node renders for the tables that its columns fit, with nothing changed but the qualifiers. For
two aliases of one table, writing one for the other turns one expression into the other. -/
theorem render_attaches (n : Node) (t : Table) : n.Attaches t where
  succeeds := exists_render_iff
  fails e := render_eq_error_iff
  keeps := by
    intro e h
    obtain ⟨-, eq⟩ := render_eq_ok_iff.mp h
    exact ⟨_, fun c => c.qualified_qualifier t, eq⟩
  visible e := qualifiers_of_render
  anyAlias := by
    intro u same
    simp only [exists_render_iff, Column.fits_congr same]
  realiases := by
    intro u a b same ha hb e h
    have realiased := render_realias same ha hb h
    refine ⟨realiased, ?_⟩
    intro literals
    rw [requalifyAll_of_render h literals, realiased]

end Node

end DataAccess
