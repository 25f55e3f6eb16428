import DataAccess.Template.Basic

/-!
# Confinement

A range is put between parentheses. It must not leave that group: outside single-quoted literals
it has no separators and no marks of comments, and its parentheses match.
-/

namespace DataAccess

/-- A way in which a text leaves its group. -/
inductive Escape where
  | quotedPlaceholder
  | separator
  | lineComment
  | commentStart
  | commentEnd
  | closingParenthesis
  | openLiteral
  | openParenthesis
deriving DecidableEq

def Escape.name : Escape → String
  | quotedPlaceholder => "placeholder inside a string literal"
  | separator => "statement separator ';'"
  | lineComment => "line comment '--'"
  | commentStart => "block comment '/*'"
  | commentEnd => "block comment '*/'"
  | closingParenthesis => "unbalanced ')'"
  | openLiteral => "unterminated string literal"
  | openParenthesis => "unbalanced '('"

/-- The first way in which a text leaves its group, from inside or outside a literal and at a
depth of parentheses. Inside a literal a doubled quote stands for one. -/
def escapeFrom? (quoted : Bool) (depth : Nat) : List Char → Option Escape
  | [] =>
    if quoted then some .openLiteral
    else if depth = 0 then none
    else some .openParenthesis
  | c :: cs =>
    if quoted then
      if c = '\'' then
        match cs with
        | [] => escapeFrom? false depth []
        | d :: ds =>
          if d = '\'' then escapeFrom? true depth ds else escapeFrom? false depth (d :: ds)
      else if c = '$' ∧ cs.head? = some '\x7b' then some .quotedPlaceholder
      else escapeFrom? true depth cs
    else if c = '\'' then escapeFrom? true depth cs
    else if c = ';' then some .separator
    else if c = '-' ∧ cs.head? = some '-' then some .lineComment
    else if c = '/' ∧ cs.head? = some '*' then some .commentStart
    else if c = '*' ∧ cs.head? = some '/' then some .commentEnd
    else if c = '(' then escapeFrom? false (depth + 1) cs
    else if c = ')' then
      match depth with
      | 0 => some .closingParenthesis
      | depth + 1 => escapeFrom? false depth cs
    else escapeFrom? false depth cs

theorem escapeFrom?_opening (depth : Nat) (cs : List Char) :
    escapeFrom? false depth ('\'' :: cs) = escapeFrom? true depth cs := by
  cases cs <;> rfl

/-- The check one character at a time. It leaves a literal at each quote, as a doubled one enters it
again. -/
theorem escapeFrom?_cons (quoted : Bool) (depth : Nat) (c : Char) (cs : List Char) :
    escapeFrom? quoted depth (c :: cs) =
      if c = '\'' then escapeFrom? (!quoted) depth cs
      else if quoted then
        if c = '$' ∧ cs.head? = some '\x7b' then some .quotedPlaceholder
        else escapeFrom? true depth cs
      else if c = ';' then some .separator
      else if c = '-' ∧ cs.head? = some '-' then some .lineComment
      else if c = '/' ∧ cs.head? = some '*' then some .commentStart
      else if c = '*' ∧ cs.head? = some '/' then some .commentEnd
      else if c = '(' then escapeFrom? false (depth + 1) cs
      else if c = ')' then
        match depth with
        | 0 => some .closingParenthesis
        | depth + 1 => escapeFrom? false depth cs
      else escapeFrom? false depth cs := by
  by_cases quote : c = '\''
  · subst quote
    cases quoted with
    | false => exact escapeFrom?_opening depth cs
    | true =>
      cases cs with
      | nil => rfl
      | cons d ds =>
        by_cases doubled : d = '\''
        · subst doubled
          exact (escapeFrom?_opening depth ds).symm
        · simp [escapeFrom?, doubled]
  · cases cs <;> cases quoted <;> simp only [escapeFrom?, quote] <;> rfl

def escape? (cs : List Char) : Option Escape := escapeFrom? false 0 cs

end DataAccess
