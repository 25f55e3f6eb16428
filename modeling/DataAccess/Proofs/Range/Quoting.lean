import DataAccess.Proofs.Range.Groups
import DataAccess.Proofs.Sql.Quoting

/-!
# Quoting in ranges

The check of a range knows of strings but not of identifiers, where a quote begins no string. The
filter of a text without placeholders is a group for SQL exactly when the lexemes of the text stay
inside, and those of an accepted text need not. They do when no identifier has a quote or a
parenthesis in it, and when no identifier begins outside of the strings that the check sees
(`wrapped_isGroup_iff`).
-/

namespace DataAccess

open Sql (Lexeme lexemes? quotes undoubled? doubled staysInside IsGroup)

section Check

variable {c mark : Char} {d : Nat} {cs ds body rest : List Char} {l : Lexeme}
  {ls : List Lexeme}

theorem commentStarts_subset : Sql.commentStarts ⊆ commentMarks := by decide

/-- The check leaves a string where SQL does. -/
theorem escapeFrom?_string
    (h : escapeFrom? false d ('\'' :: (doubled '\'' body ++ '\'' :: rest)) = none) :
    escapeFrom? false d rest = none := by
  have inside : escapeFrom? true d (doubled '\'' body ++ '\'' :: rest) = none := by
    simpa [escapeFrom?_cons] using h
  clear h
  induction body with
  | nil => simpa [doubled, escapeFrom?_cons] using inside
  | cons c body ih =>
    rw [doubled] at inside
    split at inside
    · exact ih (by simpa [escapeFrom?_cons] using inside)
    · rename_i other
      obtain ⟨-, -, after⟩ := escapeFrom?_cons_eq_none_iff.1 inside
      exact ih (by simpa [depthAfter, other] using after)

theorem escapeFrom?_identifier (plain : ∀ c ∈ body, Plain c)
    (h : escapeFrom? false d ('"' :: (doubled '"' body ++ '"' :: rest)) = none) :
    escapeFrom? false d rest = none := by
  have plainMark : Plain '"' := ⟨by decide, by decide, by decide⟩
  have plainBody : ∀ c ∈ doubled '"' body, Plain c := by
    intro c hc
    rcases Sql.mem_doubled hc with rfl | hc
    · exact plainMark
    · exact plain c hc
  exact escapeFrom?_plain plainMark (escapeFrom?_plains plainBody (escapeFrom?_plain plainMark h))

/-- A string that the check reads to the end of the text is closed for SQL. -/
theorem exists_undoubled? (h : escapeFrom? true d cs = none) :
    ∃ body rest, undoubled? '\'' cs = some (body, rest) := by
  fun_induction undoubled? '\'' cs with
  | case1 => simp [escapeFrom?] at h
  | case2 => exact ⟨[], [], rfl⟩
  | case3 c other =>
    obtain ⟨-, -, after⟩ := escapeFrom?_cons_eq_none_iff.1 h
    simp [other, escapeFrom?] at after
  | case4 ds ih =>
    obtain ⟨body, rest, read⟩ := ih (by simpa [escapeFrom?_cons] using h)
    exact ⟨'\'' :: body, rest, by rw [read]; rfl⟩
  | case5 d ds => exact ⟨[], d :: ds, rfl⟩
  | case6 c d ds other ih =>
    obtain ⟨-, -, after⟩ := escapeFrom?_cons_eq_none_iff.1 h
    obtain ⟨body, rest, read⟩ := ih (by simpa [depthAfter, other] using after)
    exact ⟨c :: body, rest, by rw [read]; rfl⟩

/-- Outside of strings and identifiers the check does what `staysInside` does. -/
theorem staysInside_char (other : c ∉ quotes) (read : lexemes? cs = some ls)
    (h : escapeFrom? false d (c :: cs) = none)
    (ih : ∀ {d}, escapeFrom? false d cs = none → staysInside d ls = true) :
    staysInside d (.char c :: ls) = true := by
  obtain ⟨passes, room, after⟩ := escapeFrom?_cons_eq_none_iff.1 h
  have noQuote : c ≠ '\'' := List.ne_of_not_mem_cons other
  have noHarm : ¬Sql.Harms (.char c) ls := by
    rintro (separator | ⟨m, hm, first, second⟩)
    · exact passes.1 (Lexeme.char.inj separator)
    · exact passes.2 m (commentStarts_subset hm)
        ⟨Lexeme.char.inj first, Sql.head?_of_lexemes? read second⟩
  have inside := ih (by simpa [noQuote] using after)
  rw [staysInside, if_neg noHarm]
  simp only [Lexeme.char.injEq]
  by_cases opens : c = '('
  · simpa [opens, depthAfter] using inside
  · by_cases closes : c = ')'
    · have below : d ≠ 0 := fun zero => room ⟨rfl, closes, zero⟩
      simpa [closes, below, depthAfter] using inside
    · simpa [opens, closes, depthAfter] using inside

def PlainIdentifiers (ls : List Lexeme) : Prop :=
  ∀ body, .quoted '"' body ∈ ls → ∀ c ∈ body, Plain c

theorem PlainIdentifiers.tail (h : PlainIdentifiers (l :: ls)) : PlainIdentifiers ls :=
  fun body hb => h body (List.mem_cons_of_mem l hb)

theorem PlainIdentifiers.cons (other : ∀ body, .quoted '"' body ≠ l) (h : PlainIdentifiers ls) :
    PlainIdentifiers (l :: ls) := by
  intro body hb
  rcases List.mem_cons.1 hb with eq | hb
  · exact absurd eq (other body)
  · exact h body hb

theorem staysInside_of_plain (read : lexemes? cs = some ls) (plain : PlainIdentifiers ls)
    (h : escapeFrom? false d cs = none) : staysInside d ls = true := by
  fun_induction lexemes? cs generalizing ls d with
  | case1 =>
    cases read
    simpa [escapeFrom?, staysInside] using h
  | case2 => cases read
  | case3 mark cs quote body rest found ih =>
    obtain ⟨ks, reads, rfl⟩ := Option.map_eq_some_iff.1 read
    rw [Sql.eq_of_undoubled? found] at h
    rw [Sql.staysInside_quoted]
    apply ih reads plain.tail
    rcases List.mem_pair.1 quote with rfl | rfl
    · exact escapeFrom?_string h
    · exact escapeFrom?_identifier (plain body List.mem_cons_self) h
  | case4 c cs other ih =>
    obtain ⟨ks, reads, rfl⟩ := Option.map_eq_some_iff.1 read
    exact staysInside_char other reads h (ih reads plain.tail)

theorem bare_cons_self_ne_nil : bare c (c :: cs) ≠ [] :=
  List.ne_nil_of_mem (mem_bare.2 ⟨List.getElem?_cons_zero, not_endsQuoted_nil⟩)

theorem bare_append (closed : ¬EndsQuoted cs) (h : bare c (cs ++ ds) = []) : bare c ds = [] := by
  rw [List.eq_nil_iff_forall_not_mem] at h ⊢
  intro i hi
  rw [mem_bare] at hi
  refine h (cs.length + i) (mem_bare.2 ⟨?_, ?_⟩)
  · rw [List.getElem?_append_right (Nat.le_add_right _ _), Nat.add_sub_cancel_left, hi.1]
  · rw [quoted_append_length]
    exact fun h => closed (h.2 hi.2)

theorem not_endsQuoted_string (body : List Char) :
    ¬EndsQuoted ('\'' :: doubled '\'' body ++ ['\'']) := by
  rw [EndsQuoted, List.count_append, List.count_cons_self, List.count_singleton_self,
    Sql.count_doubled]
  omega

/-- Where no identifier begins, the check and SQL read the same strings. -/
theorem exists_lexemes?_of_bare (h : escapeFrom? false d cs = none) (unmarked : bare '"' cs = []) :
    ∃ ls, lexemes? cs = some ls ∧ PlainIdentifiers ls := by
  fun_induction lexemes? cs generalizing d with
  | case1 => exact ⟨[], rfl, fun _ hb => absurd hb List.not_mem_nil⟩
  | case2 mark cs quote unclosed =>
    rcases List.mem_pair.1 quote with rfl | rfl
    · obtain ⟨body, rest, found⟩ := exists_undoubled? (d := d) (by simpa [escapeFrom?_cons] using h)
      rw [unclosed] at found
      cases found
    · exact absurd unmarked bare_cons_self_ne_nil
  | case3 mark cs quote body rest found ih =>
    rcases List.mem_pair.1 quote with rfl | rfl
    · rw [Sql.eq_of_undoubled? found] at h unmarked
      have unmarkedRest : bare '"' rest = [] :=
        bare_append (not_endsQuoted_string body) (by simpa using unmarked)
      obtain ⟨ls, read, plain⟩ := ih (escapeFrom?_string h) unmarkedRest
      exact ⟨.quoted '\'' body :: ls, by rw [read]; rfl, plain.cons (by simp)⟩
    · exact absurd unmarked bare_cons_self_ne_nil
  | case4 c cs other ih =>
    have noQuote : c ≠ '\'' := List.ne_of_not_mem_cons other
    obtain ⟨-, -, after⟩ := escapeFrom?_cons_eq_none_iff.1 h
    have unmarkedRest : bare '"' cs = [] :=
      bare_append (endsQuoted_singleton.not.2 noQuote) (by simpa using unmarked)
    obtain ⟨ls, read, plain⟩ := ih (by simpa [noQuote] using after) unmarkedRest
    exact ⟨.char c :: ls, by rw [read]; rfl, plain.cons (by simp)⟩

end Check

theorem Template.marked_eq_text {ps : List Piece} (noHoles : holes ps = []) :
    marked ps = text ps := by
  induction ps with
  | nil => rfl
  | cons p ps ih =>
    cases p with
    | char c => exact congrArg (c :: ·) (ih noHoles)
    | hole name => cases noHoles

namespace RowRange

open Template

/-- A text between parentheses. -/
def wrapped (s : String) : String := "(" ++ s ++ ")"

theorem toList_wrapped (s : String) : (wrapped s).toList = '(' :: s.toList ++ [')'] := by
  simp [wrapped]

/-- A text without placeholders is its own filter, between parentheses. -/
theorem Accepted.build_of_scan {s : String} (h : Accepted s) (found : Template.scan s = .ok [])
    (c : RangeContext) : (RowRange.text s).build c = .ok ⟨wrapped s, []⟩ := by
  have noHoles : holes (piecesOf s) = [] := by
    rw [Template.scan, h.template] at found
    have names := names_placeholders 0 (piecesOf s)
    rw [Except.ok.inj found] at names
    simpa using names.symm
  rw [(Parsed.parse h.parse).build_eq_ok_iff]
  constructor
  · simp [holes_template, leaves, noHoles]
  · rw [← String.toList_inj, toList_wrapped, RowRange.template, String.toList_ofList]
    simp [marked_eq_text noHoles, text_pieces h.template, Piece.mark]

/-- The filter of a text without placeholders is the text between parentheses. It is a group for SQL
exactly when the lexemes of the text stay inside; so it is one when its identifiers are plain, and
when no identifier begins outside of strings. -/
theorem wrapped_isGroup_iff {s : String} {r : RowRange} (parsed : RowRange.parse s = .ok r)
    (found : Template.scan (Text.trim s) = .ok []) :
    (∀ c, r.build c = .ok ⟨wrapped (Text.trim s), []⟩) ∧
      (IsGroup (wrapped (Text.trim s)).toList ↔
        ∃ ls, lexemes? (Text.trim s).toList = some ls ∧ staysInside 0 ls = true) ∧
      (∀ ls, lexemes? (Text.trim s).toList = some ls → PlainIdentifiers ls →
        IsGroup (wrapped (Text.trim s)).toList) ∧
      (bare '"' (Text.trim s).toList = [] → IsGroup (wrapped (Text.trim s)).toList) := by
  obtain ⟨rfl, accepted⟩ := parse_eq_ok_iff.1 parsed
  have checked : escapeFrom? false 0 (Text.trim s).toList = none := accepted.confined
  rw [toList_wrapped, Sql.isGroup_enclosed_iff]
  refine ⟨accepted.build_of_scan found, Iff.rfl, ?_, ?_⟩
  · exact fun ls read plain => ⟨ls, read, staysInside_of_plain read plain checked⟩
  · intro unmarked
    obtain ⟨ls, read, plain⟩ := exists_lexemes?_of_bare checked unmarked
    exact ⟨ls, read, staysInside_of_plain read plain checked⟩

theorem wrapped_isGroup_identifier_and_string :
    RowRange.parse "\"id\" IN ('(', 'b')" = .ok (.text "\"id\" IN ('(', 'b')") ∧
      (∀ c, (RowRange.text "\"id\" IN ('(', 'b')").build c =
        .ok ⟨"(\"id\" IN ('(', 'b'))", []⟩) ∧
      IsGroup "(\"id\" IN ('(', 'b'))".toList := by
  have parsed : RowRange.parse "\"id\" IN ('(', 'b')" = .ok (.text "\"id\" IN ('(', 'b')") := by
    simp [RowRange.parse, Text.strip, Text.dropBlank, Text.isBlank, pieces, Except.map, escape?,
      escapeFrom?]
  have trimmed : Text.trim "\"id\" IN ('(', 'b')" = "\"id\" IN ('(', 'b')" :=
    (text.inj (parse_eq_ok_iff.1 parsed).1).symm
  have found : Template.scan "\"id\" IN ('(', 'b')" = .ok [] := by
    simp [Template.scan, pieces, Except.map, placeholders]
  obtain ⟨built, -, group, -⟩ := wrapped_isGroup_iff parsed (trimmed.symm ▸ found)
  rw [trimmed] at built group
  refine ⟨parsed, built, group _ (by simp [lexemes?, quotes, undoubled?]; rfl) ?_⟩
  simp [PlainIdentifiers, Plain]

/-- To the check a quote in an identifier begins a string, which hides the parenthesis behind it. -/
theorem wrapped_left_after_identifiers :
    RowRange.parse "\"a'\" = 1) OR (1 = 1 OR \"b'\" = 1" =
        .ok (.text "\"a'\" = 1) OR (1 = 1 OR \"b'\" = 1") ∧
      Template.scan "\"a'\" = 1) OR (1 = 1 OR \"b'\" = 1" = .ok [] ∧
      (∀ c, (RowRange.text "\"a'\" = 1) OR (1 = 1 OR \"b'\" = 1").build c =
        .ok ⟨"(\"a'\" = 1) OR (1 = 1 OR \"b'\" = 1)", []⟩) ∧
      ¬IsGroup "(\"a'\" = 1) OR (1 = 1 OR \"b'\" = 1)".toList := by
  have parsed : RowRange.parse "\"a'\" = 1) OR (1 = 1 OR \"b'\" = 1" =
      .ok (.text "\"a'\" = 1) OR (1 = 1 OR \"b'\" = 1") := by
    simp [RowRange.parse, Text.strip, Text.dropBlank, Text.isBlank, pieces, Except.map, escape?,
      escapeFrom?]
  have trimmed := (text.inj (parse_eq_ok_iff.1 parsed).1).symm
  have accepted := trimmed ▸ (parse_eq_ok_iff.1 parsed).2
  have found : Template.scan "\"a'\" = 1) OR (1 = 1 OR \"b'\" = 1" = .ok [] := by
    simp [Template.scan, pieces, Except.map, placeholders]
  refine ⟨parsed, found, accepted.build_of_scan found, ?_⟩
  rintro ⟨ls, read, closes⟩
  simp [lexemes?, quotes, undoubled?] at read
  subst read
  -- The seventh lexeme is the parenthesis behind the first condition.
  exact absurd (closes.inside 7 (by decide) (by decide)) (by decide)

end RowRange

end DataAccess
