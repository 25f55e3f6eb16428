import DataAccess.Proofs.Range.Lexing
import DataAccess.Proofs.Range.Marking

/-!
# Alignment

The parameters of a filter are the values of the placeholders of its texts from left to right. They
line up with the question marks outside literals exactly when every question mark that a text has of
its own is inside a literal of the filter, and no mark is (`marks_aligned_iff`).
-/

namespace DataAccess

open Template

/-- The positions of the placeholders among the pieces of a template, from left to right. -/
def holePositions (ps : List Piece) : List Nat :=
  (List.range ps.length).filter fun i => ps[i]?.any Piece.isHole

/-- Question marks of the text itself are inside literals, and marks of placeholders are not. -/
structure ClearMarks (ps : List Piece) : Prop where
  own : ∀ i, ps[i]? = some (.char '?') → Quoted (marked ps) i
  holes : ∀ i name, ps[i]? = some (.hole name) → ¬Quoted (marked ps) i

/-- There is one question mark outside literals for each parameter, each at the position of a
placeholder. -/
structure RowFilter.Aligned (f : RowFilter) (ps : List Piece) : Prop where
  count : (bare '?' f.sql.toList).length = f.params.length
  positions : bare '?' f.sql.toList = holePositions ps

theorem any_isHole_iff {p : Option Piece} :
    p.any Piece.isHole = true ↔ ∃ name, p = some (.hole name) := by
  rcases p with _ | ⟨c | name⟩ <;> simp [Piece.isHole]

theorem length_holePositions (ps : List Piece) : (holePositions ps).length = (holes ps).length := by
  induction ps using List.reverseRecOn with
  | nil => rfl
  | append_singleton ps p ih =>
    have before : ∀ i ∈ List.range ps.length,
        (ps ++ [p])[i]?.any Piece.isHole = ps[i]?.any Piece.isHole := by
      intro i hi
      rw [List.getElem?_append_left (List.mem_range.1 hi)]
    rw [holePositions, List.length_append, List.length_singleton, List.range_succ,
      List.filter_append, List.filter_congr before, List.length_append, ← holePositions, ih,
      holes_append, List.length_append]
    cases p <;> simp [Piece.isHole, holes]

theorem getElem?_marked (ps : List Piece) (i : Nat) : (marked ps)[i]? = ps[i]?.map Piece.mark :=
  List.getElem?_map

/-- A question mark in a filter is one of the text itself or the mark of a placeholder. -/
theorem getElem?_marked_eq_iff {ps : List Piece} {i : Nat} :
    (marked ps)[i]? = some '?' ↔
      ps[i]? = some (.char '?') ∨ ∃ name, ps[i]? = some (.hole name) := by
  rw [getElem?_marked]
  rcases ps[i]? with _ | ⟨c | name⟩ <;> simp [Piece.mark]

theorem bare_marked_eq_iff {ps : List Piece} :
    bare '?' (marked ps) = holePositions ps ↔ ClearMarks ps := by
  constructor
  · intro h
    have same : ∀ i, (marked ps)[i]? = some '?' ∧ ¬Quoted (marked ps) i ↔
        ∃ name, ps[i]? = some (.hole name) := by
      intro i
      rw [← mem_bare, h, holePositions, List.mem_filter, any_isHole_iff, List.mem_range]
      exact and_iff_right_of_imp fun ⟨name, hi⟩ => (List.getElem?_eq_some_iff.1 hi).1
    constructor
    · intro i hi
      by_contra unquoted
      obtain ⟨name, hole⟩ := (same i).1 ⟨getElem?_marked_eq_iff.2 (.inl hi), unquoted⟩
      rw [hi] at hole
      cases hole
    · exact fun i name hi => ((same i).2 ⟨name, hi⟩).2
  · intro h
    rw [bare, holePositions, marked, List.length_map]
    apply List.filter_congr
    intro i _
    rw [Bool.eq_iff_iff, decide_eq_true_eq, any_isHole_iff, ← marked, getElem?_marked_eq_iff]
    constructor
    · rintro ⟨own | hole, unquoted⟩
      · exact absurd (h.own i own) unquoted
      · exact hole
    · rintro ⟨name, hole⟩
      exact ⟨.inr ⟨name, hole⟩, h.holes i name hole⟩

theorem not_endsQuoted_marked_append {ps qs : List Piece} (hps : ¬EndsQuoted (marked ps))
    (hqs : ¬EndsQuoted (marked qs)) : ¬EndsQuoted (marked (ps ++ qs)) := by
  rw [marked_append, endsQuoted_append]
  simp [hps, hqs]

theorem clearMarks_append {ps qs : List Piece} (closed : ¬EndsQuoted (marked ps)) :
    ClearMarks (ps ++ qs) ↔ ClearMarks ps ∧ ClearMarks qs := by
  have left {i : Nat} {p : Piece} (hi : ps[i]? = some p) :
      (ps ++ qs)[i]? = some p ∧ (Quoted (marked (ps ++ qs)) i ↔ Quoted (marked ps) i) := by
    have lt := (List.getElem?_eq_some_iff.1 hi).1
    rw [List.getElem?_append_left lt, marked_append,
      quoted_append_of_le _ (by simpa [marked] using Nat.le_of_lt lt)]
    exact ⟨hi, Iff.rfl⟩
  have right (i : Nat) : (ps ++ qs)[ps.length + i]? = qs[i]? ∧
      (Quoted (marked (ps ++ qs)) (ps.length + i) ↔ Quoted (marked qs) i) := by
    have length : ps.length = (marked ps).length := by simp [marked]
    rw [List.getElem?_append_right (Nat.le_add_right _ _), Nat.add_sub_cancel_left, marked_append,
      length, quoted_append_length]
    simp [closed]
  constructor
  · intro h
    refine ⟨⟨?_, ?_⟩, ⟨?_, ?_⟩⟩
    · exact fun i hi => (left hi).2.1 (h.own i (left hi).1)
    · exact fun i name hi => (left hi).2.not.1 (h.holes i name (left hi).1)
    · exact fun i hi => (right i).2.1 (h.own _ ((right i).1.trans hi))
    · exact fun i name hi => (right i).2.not.1 (h.holes _ name ((right i).1.trans hi))
  · rintro ⟨hps, hqs⟩
    have each {i : Nat} {p : Piece} (hi : (ps ++ qs)[i]? = some p) :
        ps[i]? = some p ∨ ∃ j, i = ps.length + j ∧ qs[j]? = some p := by
      rcases Nat.lt_or_ge i ps.length with lt | ge
      · exact .inl (by rwa [List.getElem?_append_left lt] at hi)
      · obtain ⟨j, rfl⟩ := Nat.exists_eq_add_of_le ge
        exact .inr ⟨j, rfl, (right j).1.symm.trans hi⟩
    constructor
    · intro i hi
      rcases each hi with hi | ⟨j, rfl, hj⟩
      · exact (left hi).2.2 (hps.own i hi)
      · exact (right j).2.2 (hqs.own j hj)
    · intro i name hi
      rcases each hi with hi | ⟨j, rfl, hj⟩
      · exact (left hi).2.not.2 (hps.holes i name hi)
      · exact (right j).2.not.2 (hqs.holes j name hj)

theorem clearMarks_char {cs : List Char} (h : '?' ∉ cs) : ClearMarks (cs.map .char) := by
  constructor
  · intro i hi
    simp only [List.getElem?_map, Option.map_eq_some_iff, Piece.char.injEq] at hi
    obtain ⟨c, hc, rfl⟩ := hi
    exact absurd (List.mem_of_getElem? hc) h
  · intro i name hi
    simp at hi

theorem not_endsQuoted_of_not_mem {cs : List Char} (h : '\'' ∉ cs) : ¬EndsQuoted cs := by
  simp [EndsQuoted, List.count_eq_zero_of_not_mem h]

theorem endsQuoted_marked_iff {ps : List Piece} (quoteless : ∀ name ∈ holes ps, '\'' ∉ name) :
    EndsQuoted (marked ps) ↔ EndsQuoted (text ps) := by
  induction ps with
  | nil => rfl
  | cons p ps ih =>
    have parts : text (p :: ps) = p.text ++ text ps := rfl
    cases p with
    | char c =>
      rw [parts, marked_cons, ← List.singleton_append, endsQuoted_append, endsQuoted_append,
        ih quoteless]
      rfl
    | hole name =>
      have free : '\'' ∉ (Piece.hole name).text := by
        simpa [Piece.text] using quoteless name List.mem_cons_self
      have rest := ih fun n hn => quoteless n (List.mem_cons_of_mem name hn)
      rw [parts, marked_cons, ← List.singleton_append, endsQuoted_append, endsQuoted_append, rest]
      simp [not_endsQuoted_of_not_mem free, endsQuoted_singleton, Piece.mark]

namespace RowRange

variable {s : String} {r : RowRange}

theorem Accepted.not_endsQuoted (h : Accepted s)
    (quoteless : ∀ name ∈ holes (piecesOf s), '\'' ∉ name) : ¬EndsQuoted (markedText s) := by
  rw [markedText, endsQuoted_marked_iff quoteless, text_pieces h.template]
  exact (escape?_eq_none_iff.1 h.confined).1.closed

/-- The check keeps placeholders out of literals, and names without quotes leave the literals as
they are. -/
theorem Accepted.not_quoted_hole (h : Accepted s)
    (quoteless : ∀ name ∈ holes (piecesOf s), '\'' ∉ name) (i : Nat) (name : List Char)
    (hi : (piecesOf s)[i]? = some (.hole name)) : ¬Quoted (markedText s) i := by
  obtain ⟨lt, hi⟩ := List.getElem?_eq_some_iff.1 hi
  have split : piecesOf s = (piecesOf s).take i ++ .hole name :: (piecesOf s).drop (i + 1) := by
    rw [← hi, List.getElem_cons_drop, List.take_append_drop]
  have before : EndsQuoted (marked ((piecesOf s).take i)) ↔
      EndsQuoted (Template.text ((piecesOf s).take i)) := by
    apply endsQuoted_marked_iff
    intro n hn
    apply quoteless n
    rw [split, holes_append]
    exact List.mem_append_left _ hn
  have opening : s.toList = Template.text ((piecesOf s).take i) ++ '$' :: '\x7b' ::
      (name ++ '\x7d' ::
        Template.text ((piecesOf s).drop (i + 1))) := by
    rw [← text_pieces h.template]
    conv_lhs => rw [split]
    simp [Template.text, Piece.text]
  have unquoted := (escape?_eq_none_iff.1 h.confined).2 (Template.text ((piecesOf s).take i)).length
  rw [opening, quoted_append_of_le _ (Nat.le_refl _), quoted_length] at unquoted
  rw [Quoted, markedText, marked, ← List.map_take, ← marked, before]
  intro quoted
  exact unquoted quoted ⟨by simp, by simp⟩

theorem clearMarks_template_iff (closed : ∀ s ∈ r.leaves, ¬EndsQuoted (markedText s)) :
    ¬EndsQuoted (marked r.template) ∧
      (ClearMarks r.template ↔ ∀ s ∈ r.leaves, ClearMarks (piecesOf s)) := by
  induction r with
  | text s =>
    have inner : ¬EndsQuoted (marked (piecesOf s)) := closed s (List.mem_singleton_self s)
    have opening : ¬EndsQuoted (marked (['('].map .char)) := by decide
    have opened := not_endsQuoted_marked_append opening inner
    have parts : template (.text s) = ['('].map .char ++ piecesOf s ++ [')'].map .char := rfl
    rw [parts, clearMarks_append opened, clearMarks_append opening,
      and_iff_left (clearMarks_char (by decide)), and_iff_right (clearMarks_char (by decide)),
      leaves, List.forall_mem_singleton]
    exact ⟨not_endsQuoted_marked_append opened (by decide), Iff.rfl⟩
  | or l r ihl ihr =>
    obtain ⟨closedl, clearl⟩ := ihl fun s hs => closed s (List.mem_append_left _ hs)
    obtain ⟨closedr, clearr⟩ := ihr fun s hs => closed s (List.mem_append_right _ hs)
    have joined : ¬EndsQuoted (marked (l.template ++ " OR ".toList.map .char)) :=
      not_endsQuoted_marked_append closedl (by decide)
    rw [template, clearMarks_append joined, clearMarks_append closedl, clearl, clearr,
      and_iff_left (clearMarks_char (by decide)), leaves, List.forall_mem_append]
    exact ⟨not_endsQuoted_marked_append joined closedr, Iff.rfl⟩

theorem aligned_iff {c : RangeContext} {f : RowFilter} (parsed : Parsed r)
    (built : r.build c = .ok f) : f.Aligned r.template ↔ ClearMarks r.template := by
  obtain ⟨values, sql⟩ := parsed.build_eq_ok_iff.1 built
  have chars : f.sql.toList = marked r.template := by rw [sql, String.toList_ofList]
  rw [← bare_marked_eq_iff, ← chars]
  constructor
  · exact RowFilter.Aligned.positions
  · intro positions
    refine ⟨?_, positions⟩
    rw [positions, length_holePositions]
    exact (mapM_eq_some_iff.1 values).length_eq

theorem clearMarks_iff_own (parsed : Parsed r)
    (quoteless : ∀ s ∈ r.leaves, ∀ name ∈ holes (piecesOf s), '\'' ∉ name) :
    ClearMarks r.template ↔
      ∀ s ∈ r.leaves, ∀ i, (piecesOf s)[i]? = some (.char '?') → Quoted (markedText s) i := by
  have accepted := parsed_iff.1 parsed
  rw [(clearMarks_template_iff fun s hs => (accepted s hs).not_endsQuoted (quoteless s hs)).2]
  apply forall₂_congr
  intro s hs
  exact ⟨ClearMarks.own, fun own => ⟨own, (accepted s hs).not_quoted_hole (quoteless s hs)⟩⟩

/-- The parameters are the values of the placeholders from left to right, and the filter has a
character for each piece of the template of the range. The question marks outside literals are those
of the placeholders exactly when the marks of the template are clear. For names without quotes this
means that a text has question marks of its own inside literals only. -/
theorem marks_aligned_iff {c : RangeContext} {f : RowFilter} (parsed : Parsed r)
    (built : r.build c = .ok f) :
    (r.leaves.flatMap fun s => holes (piecesOf s)).mapM c.value? = some f.params ∧
      f.sql.toList = marked r.template ∧
      (f.Aligned r.template ↔ ClearMarks r.template) ∧
      ((∀ s ∈ r.leaves, ∀ name ∈ holes (piecesOf s), '\'' ∉ name) →
        (ClearMarks r.template ↔
          ∀ s ∈ r.leaves, ∀ i, (piecesOf s)[i]? = some (.char '?') → Quoted (markedText s) i)) := by
  obtain ⟨values, sql⟩ := parsed.build_eq_ok_iff.1 built
  refine ⟨?_, ?_, aligned_iff parsed built, clearMarks_iff_own parsed⟩
  · rw [← holes_template, values]
  · rw [sql, String.toList_ofList]

theorem marks_aligned_beside_literal :
    Parsed (.or (.text "a = ${x}") (.text "b = '?'")) ∧
      (RowRange.or (.text "a = ${x}") (.text "b = '?'")).build
          ⟨none, .anonymous, {}, (∅ : Dictionary Value).insert "x" (.int 1)⟩ =
        .ok ⟨"(a = ?) OR (b = '?')", [.int 1]⟩ ∧
      RowFilter.Aligned ⟨"(a = ?) OR (b = '?')", [.int 1]⟩
        (template (.or (.text "a = ${x}") (.text "b = '?'"))) := by
  have left : RowRange.parse "a = ${x}" = .ok (.text "a = ${x}") := by
    simp [RowRange.parse, Text.strip, Text.dropBlank, Text.isBlank, pieces, closing?, Except.map,
      escape?, escapeFrom?]
  have right : RowRange.parse "b = '?'" = .ok (.text "b = '?'") := by
    simp [RowRange.parse, Text.strip, Text.dropBlank, Text.isBlank, pieces, Except.map, escape?,
      escapeFrom?]
  have parsed := Parsed.or (.parse left) (.parse right)
  have built : (RowRange.or (.text "a = ${x}") (.text "b = '?'")).build
      ⟨none, .anonymous, {}, (∅ : Dictionary Value).insert "x" (.int 1)⟩ =
        .ok ⟨"(a = ?) OR (b = '?')", [.int 1]⟩ := by
    simp [RowRange.build, MarkedText.ofRange, MarkedText.ofPieces, pieces, closing?, Except.map,
      RangeContext.lookup, bind, Except.bind, pure, Except.pure, MarkedText.grouped,
      MarkedText.or]
  have leftPieces : piecesOf "a = ${x}" = "a = ".toList.map .char ++ [.hole ['x']] := by
    simp [piecesOf, pieces, closing?, Except.map]
  have rightPieces : piecesOf "b = '?'" = "b = '?'".toList.map .char := by
    simp [piecesOf, pieces, Except.map]
  obtain ⟨-, -, aligned, clear⟩ := marks_aligned_iff parsed built
  refine ⟨parsed, built, aligned.2 ((clear ?_).2 ?_)⟩
  · simp [leaves, leftPieces, rightPieces, holes]
  · intro s hs i hi
    simp only [leaves, List.singleton_append, List.mem_cons, List.mem_nil_iff, or_false] at hs
    rcases hs with rfl | rfl
    · have own := List.mem_of_getElem? hi
      simp [leftPieces] at own
    · have each : ∀ i < 7, ("b = '?'".toList.map Piece.char)[i]? = some (.char '?') →
          Quoted (marked ("b = '?'".toList.map .char)) i := by decide
      rw [rightPieces] at hi
      rw [markedText, rightPieces]
      exact each i (List.getElem?_eq_some_iff.1 hi).1 hi

/-- The operator between a document and a key of it counts as a mark. -/
theorem marks_misaligned_by_operator :
    RowRange.parse "tags ? ${tag}" = .ok (.text "tags ? ${tag}") ∧
      (RowRange.text "tags ? ${tag}").build
          ⟨none, .anonymous, {}, (∅ : Dictionary Value).insert "tag" (.text "vip")⟩ =
        .ok ⟨"(tags ? ?)", [.text "vip"]⟩ ∧
      (bare '?' "(tags ? ?)".toList).length ≠ [Value.text "vip"].length := by
  refine ⟨?_, ?_, by decide⟩
  · simp [RowRange.parse, Text.strip, Text.dropBlank, Text.isBlank, pieces, closing?, Except.map,
      escape?, escapeFrom?]
  · simp [RowRange.build, MarkedText.ofRange, MarkedText.ofPieces, pieces, closing?, Except.map,
      RangeContext.lookup, bind, Except.bind, pure, Except.pure, MarkedText.grouped]

end RowRange

end DataAccess
