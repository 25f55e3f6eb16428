import DataAccess.Proofs.Decimal.Digits
import DataAccess.Sql.Bound
import Mathlib.Data.List.TakeWhile

/-!
# Tokens of SQL

How a text of SQL with bound values falls into tokens: names between double quotes, numbered
markers, keywords in capitals, and signs. What is written for a name, a marker or a link is read as
its own tokens wherever it stands (`LexesTo`, `Separates`).
-/

namespace DataAccess.Sql

/-- The text up to a closing mark, where a mark inside is written twice, and what follows it. -/
def undoubled? (mark : Char) : List Char → Option (List Char × List Char)
  | [] => none
  | [c] => if c = mark then some ([], []) else none
  | c :: d :: ds =>
    if c = mark then
      if d = mark then (undoubled? mark ds).map fun (s, rest) => (mark :: s, rest)
      else some ([], d :: ds)
    else (undoubled? mark (d :: ds)).map fun (s, rest) => (c :: s, rest)

section Undoubled

variable {mark : Char} {cs s rest : List Char}

theorem undoubled?_cons {c : Char} (other : c ≠ mark) :
    undoubled? mark (c :: cs) = (undoubled? mark cs).map fun (s, rest) => (c :: s, rest) := by
  cases cs with
  | nil => simp [undoubled?, other]
  | cons d ds => rw [undoubled?, if_neg other]

theorem undoubled?_doubled (stop : rest.head? ≠ some mark) :
    undoubled? mark (doubled mark cs ++ mark :: rest) = some (cs, rest) := by
  induction cs with
  | nil =>
    cases rest with
    | nil => simp [doubled, undoubled?]
    | cons d ds =>
      have other : d ≠ mark := by simpa using stop
      simp [doubled, undoubled?, other]
  | cons c cs ih =>
    rw [doubled]
    by_cases same : c = mark
    · simp [undoubled?, same, ih]
    · rw [if_neg same, List.cons_append, undoubled?_cons same, ih]
      rfl

theorem length_lt_of_undoubled? (h : undoubled? mark cs = some (s, rest)) :
    rest.length < cs.length := by
  fun_induction undoubled? mark cs generalizing s with
  | case1 => cases h
  | case2 =>
    cases h
    exact Nat.zero_lt_one
  | case3 => cases h
  | case4 ds ih =>
    obtain ⟨⟨s', rest'⟩, read, eq⟩ := Option.map_eq_some_iff.mp h
    cases eq
    exact Nat.lt_succ_of_lt (Nat.lt_succ_of_lt (ih read))
  | case5 d ds other =>
    cases h
    exact Nat.lt_succ_self _
  | case6 c d ds other ih =>
    obtain ⟨⟨s', rest'⟩, read, eq⟩ := Option.map_eq_some_iff.mp h
    cases eq
    exact Nat.lt_succ_of_lt (ih read)

end Undoubled

inductive Token where
  | name (s : String)
  | marker (i : Nat)
  | keyword (k : Link)
  | sign (c : Char)
deriving DecidableEq

namespace Token

def marker? : Token → Option Nat
  | marker i => some i
  | _ => none

end Token

/-- The link that is written as a word. -/
def Link.ofWord? (cs : List Char) : Option Link :=
  match String.ofList cs with
  | "AND" => some and
  | "OR" => some or
  | "IN" => some isIn
  | "BETWEEN" => some between
  | "LIKE" => some like
  | _ => none

/-- The tokens of a text. Blanks only separate them. -/
def tokens? : List Char → Option (List Token)
  | [] => some []
  | c :: cs =>
    if c = ' ' then tokens? cs
    else if c = '"' then
      match _ : undoubled? '"' cs with
      | none => none
      | some (s, rest) => (tokens? rest).map (.name (String.ofList s) :: ·)
    else if c = '$' then
      (tokens? (Decimal.spanDigits cs).2).map
        (.marker (Decimal.value (Decimal.spanDigits cs).1) :: ·)
    else if c.isUpper then
      (Link.ofWord? (c :: cs.takeWhile (·.isUpper))).bind fun k =>
        (tokens? (cs.dropWhile (·.isUpper))).map (.keyword k :: ·)
    else (tokens? cs).map (.sign c :: ·)
termination_by cs => cs.length
decreasing_by
  · exact Nat.lt_succ_self _
  · exact Nat.lt_succ_of_lt (length_lt_of_undoubled? ‹_›)
  · exact Nat.lt_succ_of_le (List.length_dropWhile_le _ _)
  · exact Nat.lt_succ_of_le (List.length_dropWhile_le _ _)
  · exact Nat.lt_succ_self _

section Tokens

variable {c : Char} {cs ds rest sep : List Char} {ts us ss : List Token} {s : String}

theorem tokens?_nil : tokens? [] = some [] := by rw [tokens?]

theorem tokens?_blank : tokens? (' ' :: cs) = tokens? cs := by rw [tokens?, if_pos rfl]

theorem tokens?_name {name : List Char} (read : undoubled? '"' cs = some (name, rest)) :
    tokens? ('"' :: cs) = (tokens? rest).map (.name (String.ofList name) :: ·) := by
  rw [tokens?, if_neg (by decide), if_pos rfl]
  split
  · rename_i failed
    rw [read] at failed
    cases failed
  · rename_i read'
    rw [read] at read'
    cases read'
    rfl

theorem tokens?_marker (digits : ∀ c ∈ ds, c.isDigit = true)
    (stop : ∀ c ∈ rest.head?, c.isDigit = false) :
    tokens? ('$' :: ds ++ rest) = (tokens? rest).map (.marker (Decimal.value ds) :: ·) := by
  rw [List.cons_append, tokens?, if_neg (by decide), if_neg (by decide), if_pos rfl,
    Decimal.spanDigits_append digits stop]

theorem tokens?_keyword {k : Link} (capitals : ∀ c ∈ ds, c.isUpper = true) (nonempty : ds ≠ [])
    (word : Link.ofWord? ds = some k) (stop : ∀ c ∈ rest.head?, c.isUpper = false) :
    tokens? (ds ++ rest) = (tokens? rest).map (.keyword k :: ·) := by
  obtain ⟨c, ds, rfl⟩ := List.exists_cons_of_ne_nil nonempty
  rw [List.forall_mem_cons] at capitals
  have run := Decimal.takeWhile_dropWhile_append capitals.2 stop
  have plain : c ≠ ' ' ∧ c ≠ '"' ∧ c ≠ '$' := by
    refine ⟨?_, ?_, ?_⟩ <;>
    · rintro rfl
      exact absurd capitals.1 (by decide)
  rw [List.cons_append, tokens?, if_neg plain.1, if_neg plain.2.1, if_neg plain.2.2,
    if_pos capitals.1, run.1, run.2, word, Option.bind_some]

/-- The characters that are tokens on their own. -/
def IsSign (c : Char) : Prop := c ≠ ' ' ∧ c ≠ '"' ∧ c ≠ '$' ∧ c.isUpper = false

instance : DecidablePred IsSign := fun c =>
  inferInstanceAs (Decidable (c ≠ ' ' ∧ c ≠ '"' ∧ c ≠ '$' ∧ c.isUpper = false))

theorem tokens?_sign (sign : IsSign c) :
    tokens? (c :: cs) = (tokens? cs).map (.sign c :: ·) := by
  obtain ⟨blank, quote, dollar, upper⟩ := sign
  rw [tokens?, if_neg blank, if_neg quote, if_neg dollar, if_neg (by simp [upper])]

/-- No token of the text before goes on here. -/
def Delimited (cs : List Char) : Prop := ∀ c ∈ cs.head?, c = ' ' ∨ c = ',' ∨ c = ')'

/-- A text has its tokens before every delimited text. -/
def LexesTo (cs : List Char) (ts : List Token) : Prop :=
  ∀ rest, Delimited rest → tokens? (cs ++ rest) = (tokens? rest).map (ts ++ ·)

/-- A text delimits what stands before it and has its tokens before every text. -/
structure Separates (sep : List Char) (ss : List Token) : Prop where
  delimits : ∀ rest, Delimited (sep ++ rest)
  lexes : ∀ rest, tokens? (sep ++ rest) = (tokens? rest).map (ss ++ ·)

theorem LexesTo.tokens? (h : LexesTo cs ts) : tokens? cs = some ts := by
  have lexed := h [] (by simp [Delimited])
  simpa [tokens?_nil] using lexed

theorem LexesTo.joined (left : LexesTo cs ts) (link : Separates sep ss) (right : LexesTo ds us) :
    LexesTo (cs ++ sep ++ ds) (ts ++ ss ++ us) := by
  intro rest stop
  rw [List.append_assoc, List.append_assoc, left _ (link.delimits _), link.lexes, right rest stop]
  simp [Function.comp_def]

theorem LexesTo.closed (h : LexesTo cs ts) : LexesTo (cs ++ [')']) (ts ++ [.sign ')']) := by
  intro rest stop
  rw [List.append_assoc, List.singleton_append, h _ (by simp [Delimited]),
    tokens?_sign (by decide)]
  simp [Function.comp_def]

theorem LexesTo.enclosed (h : LexesTo cs ts) :
    LexesTo ('(' :: cs ++ [')']) (.sign '(' :: ts ++ [.sign ')']) := by
  intro rest stop
  rw [List.cons_append, List.cons_append, tokens?_sign (by decide), h.closed rest stop]
  simp [Function.comp_def]

theorem identifier_append (h : rest.head? ≠ some '"') :
    tokens? (identifier s ++ rest) = (tokens? rest).map (.name s :: ·) := by
  rw [identifier, List.append_assoc, List.cons_append, List.singleton_append,
    tokens?_name (undoubled?_doubled h), String.ofList_toList]

theorem Delimited.head?_ne_quote (h : Delimited rest) : rest.head? ≠ some '"' := by
  intro quote
  simpa using h '"' quote

theorem Delimited.isDigit_eq_false (h : Delimited rest) : ∀ c ∈ rest.head?, c.isDigit = false := by
  intro c hc
  rcases h c hc with rfl | rfl | rfl <;> rfl

theorem lexesTo_identifier (s : String) : LexesTo (identifier s) [.name s] := by
  intro rest stop
  rw [identifier_append stop.head?_ne_quote]
  rfl

theorem lexesTo_qualified (q s : String) :
    LexesTo (identifier q ++ '.' :: identifier s) [.name q, .sign '.', .name s] := by
  intro rest stop
  rw [List.append_assoc, List.cons_append, identifier_append (by simp), tokens?_sign (by decide),
    identifier_append stop.head?_ne_quote]
  simp [Function.comp_def]

theorem lexesTo_marker (k : Nat) : LexesTo ('$' :: Decimal.chars k) [.marker k] := by
  intro rest stop
  rw [tokens?_marker (fun _ => Decimal.isDigit_of_mem_chars) stop.isDigit_eq_false,
    Decimal.value_chars]
  rfl

theorem separates_keyword (word : List Char) {k : Link} (spaced : cs = ' ' :: word ++ [' '])
    (capitals : word.all (·.isUpper) = true) (nonempty : word ≠ [])
    (reads : Link.ofWord? word = some k) : Separates cs [.keyword k] := by
  subst spaced
  constructor
  · intro rest
    simp [Delimited]
  · intro rest
    rw [List.append_assoc, List.cons_append, tokens?_blank,
      tokens?_keyword (List.all_eq_true.mp capitals) nonempty reads (by simp),
      List.singleton_append, tokens?_blank]
    rfl

theorem Separates.sign (h : Separates sep ss) (sign : IsSign c) :
    Separates (sep ++ [c]) (ss ++ [.sign c]) := by
  constructor
  · intro rest
    rw [List.append_assoc]
    exact h.delimits _
  · intro rest
    rw [List.append_assoc, h.lexes, List.singleton_append, tokens?_sign sign]
    simp [Function.comp_def]

/-- The comma between the elements of a list. -/
theorem separates_comma : Separates [',', ' '] [.sign ','] := by
  constructor
  · intro rest
    simp [Delimited]
  · intro rest
    rw [List.cons_append, tokens?_sign (by decide), List.singleton_append, tokens?_blank]
    rfl

end Tokens

namespace Link

/-- The tokens between operands. -/
def tokens : Link → List Token
  | and => [.keyword and]
  | or => [.keyword or]
  | eq => [.sign '=']
  | isIn => [.keyword isIn, .sign '(']
  | between => [.keyword between]
  | like => [.keyword like]

theorem separates (k : Link) : Separates k.chars k.tokens := by
  cases k with
  | and => exact separates_keyword "AND".toList rfl rfl (by decide) rfl
  | or => exact separates_keyword "OR".toList rfl rfl (by decide) rfl
  | eq =>
    have spaced : eq.chars = [' ', '=', ' '] := by decide
    rw [spaced]
    constructor
    · intro rest
      simp [Delimited]
    · intro rest
      rw [List.cons_append, tokens?_blank, List.cons_append, tokens?_sign (by decide),
        List.singleton_append, tokens?_blank]
      rfl
  | isIn =>
    have word : Separates " IN ".toList [.keyword isIn] :=
      separates_keyword "IN".toList rfl rfl (by decide) rfl
    have opened : isIn.chars = " IN ".toList ++ ['('] := by decide
    rw [opened]
    exact word.sign (by decide)
  | between => exact separates_keyword "BETWEEN".toList rfl rfl (by decide) rfl
  | like => exact separates_keyword "LIKE".toList rfl rfl (by decide) rfl

end Link

end DataAccess.Sql
