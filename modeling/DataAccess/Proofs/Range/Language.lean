import DataAccess.Proofs.Range.Lexing
import DataAccess.Proofs.Range.Marking

/-!
# The language of ranges

Which texts are ranges, told without a run over them: by the number of quotes before a position and
the parentheses outside of literals (`InLanguage`). Reading accepts these texts and no others, and
reads what it accepted again to the same range (`parse_language`).
-/

namespace DataAccess.RowRange

/-- A text that is a range as it stands. -/
structure InLanguage (s : String) : Prop where
  nonempty : s ≠ ""
  template : ∃ found, Template.scan s = .ok found
  confined : Confined s.toList
  noQuotedPlaceholder :
    ∀ i, Quoted s.toList i → ¬(s.toList[i]? = some '$' ∧ s.toList[i + 1]? = some '\x7b')

theorem exists_scan_iff {s : String} :
    (∃ found, Template.scan s = .ok found) ↔
      Template.pieces 0 s.toList = .ok (Template.piecesOf s) := by
  rw [Template.scan, Template.piecesOf]
  cases Template.pieces 0 s.toList <;> simp [Except.map]

/-- Trimmed texts are accepted when they are in the language. -/
theorem accepted_iff {s : String} : Accepted s ↔ Text.trim s = s ∧ InLanguage s := by
  constructor
  · rintro ⟨trimmed, nonempty, template, confined⟩
    obtain ⟨confined, noQuotedPlaceholder⟩ := escape?_eq_none_iff.mp confined
    exact ⟨trimmed, nonempty, exists_scan_iff.mpr template, confined, noQuotedPlaceholder⟩
  · rintro ⟨trimmed, nonempty, template, confined, noQuotedPlaceholder⟩
    refine ⟨trimmed, nonempty, exists_scan_iff.mp template, ?_⟩
    exact escape?_eq_none_iff.mpr ⟨confined, noQuotedPlaceholder⟩

/-- Reading takes no notice of blanks around a text, and of what is left it accepts the texts in the
language. -/
theorem parse_language (s : String) :
    (∀ r, parse s = .ok r ↔ r = .text (Text.trim s) ∧ InLanguage (Text.trim s)) ∧
      parse (Text.trim s) = parse s := by
  constructor
  · intro r
    rw [parse_eq_ok_iff, accepted_iff, Text.trim_trim, eq_self, true_and]
  · rw [parse, parse, Text.toList_trim, Text.strip_strip]

end DataAccess.RowRange
