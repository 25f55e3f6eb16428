import DataAccess.Proofs.Range.Lexing
import DataAccess.Proofs.Range.Marking

/-!
# Groups

The filter of a range is a sequence of groups, one for each text of the range: the text between
parentheses, with marks for its placeholders. The check reads a text before the names of its
placeholders are taken out of it. A group is therefore closed exactly when the text passes the check
once more without these names (`groups_closed_iff`), which a quote or a parenthesis in a name can
prevent.
-/

namespace DataAccess

open Template

/-- A group that is closed by its last character and by no earlier one, and that has no separator
and no mark of a comment. -/
structure ClosedGroup (g : List Char) : Prop where
  opening : g.head? = some '('
  closing : g.getLast? = some ')'
  literalsClosed : ¬EndsQuoted g
  inside : ∀ i, 0 < i → i < g.length → 1 ≤ depth (g.take i)
  outside : depth g = 0
  noSeparator : ∀ i, ¬Quoted g i → g[i]? ≠ some ';'
  noComment : ∀ i, ¬Quoted g i → ∀ m ∈ commentMarks, ¬(g[i]? = some m.1 ∧ g[i + 1]? = some m.2)

def parenthesized (cs : List Char) : List Char := '(' :: cs ++ [')']

theorem not_endsQuoted_opening : ¬EndsQuoted ['('] := by decide

theorem endsQuoted_opening {cs : List Char} : EndsQuoted ('(' :: cs) ↔ EndsQuoted cs := by
  rw [← List.singleton_append, endsQuoted_append]
  simp [not_endsQuoted_opening]

theorem depth_opening (cs : List Char) : depth ('(' :: cs) = 1 + depth cs := by
  rw [← List.singleton_append, depth_append not_endsQuoted_opening]
  rfl

section
variable {cs : List Char}

theorem length_parenthesized : (parenthesized cs).length = cs.length + 2 := by
  simp [parenthesized]

theorem take_parenthesized {i : Nat} (h : i ≤ cs.length) :
    (parenthesized cs).take (i + 1) = '(' :: cs.take i := by
  simp [parenthesized, List.take_append_of_le_length h]

theorem quoted_parenthesized {i : Nat} (h : i ≤ cs.length) :
    Quoted (parenthesized cs) (i + 1) ↔ Quoted cs i := by
  rw [Quoted, take_parenthesized h, endsQuoted_opening, Quoted]

theorem endsQuoted_parenthesized : EndsQuoted (parenthesized cs) ↔ EndsQuoted cs := by
  rw [parenthesized, endsQuoted_append, endsQuoted_opening, endsQuoted_singleton]
  simp

theorem depth_parenthesized (h : ¬EndsQuoted cs) : depth (parenthesized cs) = depth cs := by
  rw [parenthesized, depth_concat, depth_opening]
  simp [endsQuoted_opening, h]

theorem getElem?_parenthesized {i : Nat} {c : Char} (opening : c ≠ '(') (closing : c ≠ ')') :
    (parenthesized cs)[i]? = some c ↔ ∃ j, i = j + 1 ∧ cs[j]? = some c := by
  cases i with
  | zero => simp [parenthesized, opening.symm]
  | succ j =>
    have inner : (cs ++ [')'])[j]? = some c ↔ cs[j]? = some c := by
      rcases Nat.lt_or_ge j cs.length with lt | ge
      · rw [List.getElem?_append_left lt]
      · rw [List.getElem?_append_right ge, List.getElem?_eq_none ge]
        simp [List.getElem?_singleton, closing.symm]
    simpa [parenthesized] using inner

theorem mem_commentMarks {m : Char × Char} (h : m ∈ commentMarks) :
    (m.1 ≠ '(' ∧ m.1 ≠ ')') ∧ m.2 ≠ '(' ∧ m.2 ≠ ')' := by
  revert m
  decide

/-- Parentheses around a text close where they should when the text is confined. -/
theorem closedGroup_parenthesized_iff : ClosedGroup (parenthesized cs) ↔ Confined cs := by
  constructor
  · intro h
    have closed : ¬EndsQuoted cs := endsQuoted_parenthesized.not.1 h.literalsClosed
    have bound {i : Nat} {c : Char} (hc : cs[i]? = some c) : i ≤ cs.length :=
      Nat.le_of_lt (List.getElem?_eq_some_iff.1 hc).1
    refine ⟨closed, ?_, ?_, ?_, ?_⟩
    · intro i unquoted hc
      have hc' := (getElem?_parenthesized (by decide) (by decide)).2 ⟨i, rfl, hc⟩
      refine h.noSeparator (i + 1) ?_ hc'
      rwa [quoted_parenthesized (bound hc)]
    · rintro i unquoted m hm ⟨hc, hd⟩
      obtain ⟨⟨o₁, c₁⟩, o₂, c₂⟩ := mem_commentMarks hm
      refine h.noComment (i + 1) ?_ m hm ⟨(getElem?_parenthesized o₁ c₁).2 ⟨i, rfl, hc⟩,
        (getElem?_parenthesized o₂ c₂).2 ⟨i + 1, rfl, hd⟩⟩
      rwa [quoted_parenthesized (bound hc)]
    · intro i
      have open_ := h.inside (min i cs.length + 1) (Nat.succ_pos _) (by
        rw [length_parenthesized]
        omega)
      rw [take_parenthesized (Nat.min_le_right _ _), depth_opening,
        ← List.take_eq_take_min] at open_
      omega
    · rw [← depth_parenthesized closed]
      exact h.outside
  · intro h
    refine ⟨rfl, List.getLast?_concat, endsQuoted_parenthesized.not.2 h.closed, ?_, ?_, ?_, ?_⟩
    · intro i pos lt
      obtain ⟨j, rfl⟩ : ∃ j, i = j + 1 := ⟨i - 1, by omega⟩
      rw [length_parenthesized] at lt
      rw [take_parenthesized (by omega), depth_opening]
      have := h.depth_nonneg j
      omega
    · rw [depth_parenthesized h.closed]
      exact h.depth_eq
    · intro i unquoted hc
      obtain ⟨j, rfl, hj⟩ := (getElem?_parenthesized (by decide) (by decide)).1 hc
      rw [quoted_parenthesized (Nat.le_of_lt (List.getElem?_eq_some_iff.1 hj).1)] at unquoted
      exact h.noSeparator j unquoted hj
    · rintro i unquoted m hm ⟨hc, hd⟩
      obtain ⟨⟨o₁, c₁⟩, o₂, c₂⟩ := mem_commentMarks hm
      obtain ⟨j, rfl, hj⟩ := (getElem?_parenthesized o₁ c₁).1 hc
      obtain ⟨k, eq, hk⟩ := (getElem?_parenthesized o₂ c₂).1 hd
      rw [quoted_parenthesized (Nat.le_of_lt (List.getElem?_eq_some_iff.1 hj).1)] at unquoted
      exact h.noComment j unquoted m hm ⟨hj, by rwa [Nat.succ.inj eq]⟩

end

/-- Marks never form the opening of a placeholder with the text around them. -/
theorem not_opening_marked {offset : Nat} {cs : List Char} {ps : List Piece}
    (h : pieces offset cs = .ok ps) (i : Nat) :
    ¬((marked ps)[i]? = some '$' ∧ (marked ps)[i + 1]? = some '\x7b') := by
  fun_induction pieces offset cs generalizing ps i with
  | case1 =>
    cases h
    simp
  | case2 | case3 => cases h
  | case4 offset rest c name after hc ih =>
    obtain ⟨qs, hq, rfl⟩ := map_eq_ok_iff.1 h
    cases i with
    | zero => simp [Piece.mark]
    | succ i => simpa using ih hq i
  | case5 offset c rest notOpening ih =>
    obtain ⟨qs, hq, rfl⟩ := map_eq_ok_iff.1 h
    cases i with
    | zero =>
      rintro ⟨dollar, brace⟩
      have eq : c = '$' := by simpa [Piece.mark] using dollar
      rcases qs with _ | ⟨d | name, qs⟩
      · simp at brace
      · have eq' : d = '\x7b' := by simpa [Piece.mark] using brace
        subst eq eq'
        exact notOpening (text qs) rfl (text_pieces hq).symm
      · simp [Piece.mark] at brace
    | succ i => simpa using ih hq i

namespace RowRange

def group (s : String) : List Char := parenthesized (markedText s)

/-- The group of an accepted text is closed when the text passes the check once more without the
names of its placeholders. -/
theorem Accepted.closedGroup_iff {s : String} (h : Accepted s) :
    ClosedGroup (group s) ↔ escape? (markedText s) = none := by
  rw [group, closedGroup_parenthesized_iff, escape?_eq_none_iff]
  exact (and_iff_left fun i _ => not_opening_marked h.template i).symm

theorem leaves_ne_nil (r : RowRange) : r.leaves ≠ [] := by
  induction r with
  | text s => exact List.cons_ne_nil _ _
  | or l r ihl ihr => exact List.append_ne_nil_of_left_ne_nil ihl _

theorem intercalate_append {sep : List Char} {xs ys : List (List Char)} (hx : xs ≠ [])
    (hy : ys ≠ []) :
    sep.intercalate (xs ++ ys) = sep.intercalate xs ++ sep ++ sep.intercalate ys := by
  induction xs with
  | nil => exact absurd rfl hx
  | cons x xs ih =>
    by_cases hxs : xs = []
    · subst hxs
      rw [List.singleton_append, List.intercalate_cons_of_ne_nil hy, List.intercalate_singleton]
    · have hxsys := List.append_ne_nil_of_left_ne_nil hxs ys
      rw [List.cons_append, List.intercalate_cons_of_ne_nil hxsys, ih hxs,
        List.intercalate_cons_of_ne_nil hxs]
      simp only [List.append_assoc]

/-- The filter of a range is the sequence of its groups. -/
theorem marked_template (r : RowRange) :
    marked r.template = " OR ".toList.intercalate (r.leaves.map group) := by
  induction r with
  | text s => simp [template, leaves, group, parenthesized, markedText, Piece.mark]
  | or l r ihl ihr =>
    rw [template, marked_append, marked_append, marked_char, ihl, ihr, leaves, List.map_append]
    have left : l.leaves.map group ≠ [] := by simpa using leaves_ne_nil l
    have right : r.leaves.map group ≠ [] := by simpa using leaves_ne_nil r
    exact (intercalate_append left right).symm

end RowRange

/-- A character that neither literals nor groups begin or end with. -/
def Plain (c : Char) : Prop := c ≠ '\'' ∧ c ≠ '(' ∧ c ≠ ')'

theorem escapeFrom?_plain {d : Nat} {c : Char} {cs : List Char} (plain : Plain c)
    (h : escapeFrom? false d (c :: cs) = none) : escapeFrom? false d cs = none := by
  obtain ⟨-, -, rest⟩ := escapeFrom?_cons_eq_none_iff.1 h
  simpa [depthAfter, plain.1, plain.2.1, plain.2.2] using rest

theorem escapeFrom?_plains {d : Nat} {cs ds : List Char} (plain : ∀ c ∈ cs, Plain c)
    (h : escapeFrom? false d (cs ++ ds) = none) : escapeFrom? false d ds = none := by
  induction cs with
  | nil => exact h
  | cons c cs ih =>
    exact ih (fun d hd => plain d (List.mem_cons_of_mem c hd))
      (escapeFrom?_plain (plain c List.mem_cons_self) h)

theorem passes_marked {quoted : Bool} {c : Char} {ps : List Piece}
    (h : Passes quoted c (text ps).head?) : Passes quoted c (marked ps).head? := by
  match ps with
  | [] => exact h
  | .char d :: ps => exact h
  | .hole name :: ps =>
    cases quoted with
    | true => simp [Passes, Piece.mark]
    | false =>
      rw [passes_false_iff] at h ⊢
      simp [h.1, Piece.mark]

theorem escapeFrom?_mark {d : Nat} {cs : List Char} (h : escapeFrom? false d cs = none) :
    escapeFrom? false d ('?' :: cs) = none := by
  rw [escapeFrom?_cons_eq_none_iff, passes_false_iff]
  simpa [depthAfter] using h

/-- A text that passes the check does so without the names of its placeholders when these are
plain. A placeholder begins outside literals, and a plain name leaves the check as it was. -/
theorem escapeFrom?_marked {quoted : Bool} {d : Nat} {ps : List Piece}
    (plain : ∀ name ∈ holes ps, ∀ c ∈ name, Plain c)
    (h : escapeFrom? quoted d (text ps) = none) : escapeFrom? quoted d (marked ps) = none := by
  induction ps generalizing quoted d with
  | nil => exact h
  | cons p ps ih =>
    cases p with
    | char c =>
      obtain ⟨passes, room, rest⟩ := escapeFrom?_cons_eq_none_iff.1 h
      exact escapeFrom?_cons_eq_none_iff.2 ⟨passes_marked passes, room, ih plain rest⟩
    | hole name =>
      have parts : text (.hole name :: ps) = '$' :: '\x7b' :: name ++ ['\x7d'] ++ text ps := rfl
      rw [parts] at h
      cases quoted with
      | true => simp [escapeFrom?_cons] at h
      | false =>
        have plainName : ∀ c ∈ '$' :: '\x7b' :: name ++ ['\x7d'], Plain c := by
          intro c hc
          simp only [List.cons_append, List.mem_cons, List.mem_append, List.mem_nil_iff,
            or_false] at hc
          rcases hc with rfl | rfl | hc | rfl
          · exact ⟨by decide, by decide, by decide⟩
          · exact ⟨by decide, by decide, by decide⟩
          · exact plain name List.mem_cons_self c hc
          · exact ⟨by decide, by decide, by decide⟩
        exact escapeFrom?_mark (ih (fun n hn => plain n (List.mem_cons_of_mem name hn))
          (escapeFrom?_plains plainName h))

namespace RowRange

variable {r : RowRange}

theorem closedGroups_iff (accepted : ∀ s ∈ r.leaves, Accepted s) :
    (∀ s ∈ r.leaves, ClosedGroup (group s)) ↔ ∀ s ∈ r.leaves, escape? (markedText s) = none :=
  forall₂_congr fun s hs => (accepted s hs).closedGroup_iff

theorem Accepted.closedGroup_of_plain {s : String} (h : Accepted s)
    (plain : ∀ name ∈ holes (piecesOf s), ∀ ch ∈ name, Plain ch) : ClosedGroup (group s) := by
  rw [h.closedGroup_iff]
  apply escapeFrom?_marked plain
  rw [text_pieces h.template]
  exact h.confined

/-- The filter of a range is one group for each of its texts. The groups are closed exactly when
every text passes the check without the names of its placeholders. They are closed when no name has
a quote or a parenthesis. -/
theorem groups_closed_iff {c : RangeContext} {f : RowFilter} (parsed : Parsed r)
    (built : r.build c = .ok f) :
    f.sql.toList = " OR ".toList.intercalate (r.leaves.map group) ∧
      ((∀ s ∈ r.leaves, ClosedGroup (group s)) ↔
        ∀ s ∈ r.leaves, escape? (markedText s) = none) ∧
      ((∀ s ∈ r.leaves, ∀ name ∈ holes (piecesOf s), ∀ ch ∈ name, Plain ch) →
        ∀ s ∈ r.leaves, ClosedGroup (group s)) := by
  have accepted := parsed_iff.1 parsed
  obtain ⟨-, sql⟩ := parsed.build_eq_ok_iff.1 built
  refine ⟨?_, closedGroups_iff accepted, ?_⟩
  · rw [sql, String.toList_ofList, marked_template]
  · exact fun plain s hs => (accepted s hs).closedGroup_of_plain (plain s hs)

theorem groups_closed_two_texts :
    Parsed (.or (.text "owner = ${subjectId}") (.text "kind = ')'")) ∧
      (RowRange.or (.text "owner = ${subjectId}") (.text "kind = ')'")).build
        ⟨none, .named "u-1", {}, ∅⟩ = .ok ⟨"(owner = ?) OR (kind = ')')", [.text "u-1"]⟩ ∧
      ∀ s ∈ ["owner = ${subjectId}", "kind = ')'"], ClosedGroup (group s) := by
  have left : RowRange.parse "owner = ${subjectId}" = .ok (.text "owner = ${subjectId}") := by
    simp [RowRange.parse, Text.strip, Text.dropBlank, Text.isBlank, pieces, closing?, Except.map,
      escape?, escapeFrom?]
  have right : RowRange.parse "kind = ')'" = .ok (.text "kind = ')'") := by
    simp [RowRange.parse, Text.strip, Text.dropBlank, Text.isBlank, pieces, Except.map, escape?,
      escapeFrom?]
  have parsed := Parsed.or (.parse left) (.parse right)
  have built : (RowRange.or (.text "owner = ${subjectId}") (.text "kind = ')'")).build
      ⟨none, .named "u-1", {}, ∅⟩ = .ok ⟨"(owner = ?) OR (kind = ')')", [.text "u-1"]⟩ := by
    simp [RowRange.build, MarkedText.ofRange, MarkedText.ofPieces, pieces, closing?, Except.map,
      RangeContext.lookup, Requester.named, bind, Except.bind, pure, Except.pure,
      MarkedText.grouped, MarkedText.or]
  refine ⟨parsed, built, (groups_closed_iff parsed built).2.2 ?_⟩
  simp [leaves, piecesOf, pieces, closing?, Except.map, holes, Plain]

/-- A quote in the name of a placeholder hides the rest of the text from the check. -/
theorem group_left_after_quoted_name :
    RowRange.parse "$\x7ba'\x7d) OR (1=1) -- '" = .ok (.text "$\x7ba'\x7d) OR (1=1) -- '") ∧
      (RowRange.text "$\x7ba'\x7d) OR (1=1) -- '").build
          ⟨none, .anonymous, {}, (∅ : Dictionary Value).insert "a'" (.int 1)⟩ =
        .ok ⟨"(?) OR (1=1) -- ')", [.int 1]⟩ ∧
      ¬ClosedGroup "(?) OR (1=1) -- ')".toList := by
  refine ⟨?_, ?_, ?_⟩
  · simp [RowRange.parse, Text.strip, Text.dropBlank, Text.isBlank, pieces, closing?, Except.map,
      escape?, escapeFrom?]
  · simp [RowRange.build, MarkedText.ofRange, MarkedText.ofPieces, pieces, closing?, Except.map,
      RangeContext.lookup, bind, Except.bind, pure, Except.pure, MarkedText.grouped]
  · exact fun h => absurd (h.inside 3 (by decide) (by decide)) (by decide)

end RowRange

end DataAccess
