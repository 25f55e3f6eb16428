import DataAccess.Proofs.Decimal.FloatText
import DataAccess.Proofs.Sql.Condition
import DataAccess.Proofs.Sql.Lexing
import DataAccess.Sql.Text

/-!
# Readable SQL is unambiguous

No condition has the text of another one, whatever stands in its strings and patterns
(`Condition.eq_of_text_eq`). Each text is followed by a blank, a comma or a parenthesis, which ends
a name or a number, and a string ends at a quote that is not doubled: so a text is read off the
front of what contains it.
-/

namespace DataAccess.Sql

/-- Texts of one kind of characters end where the first other character is. -/
theorem append_inj_of_stop {p : Char → Bool} {cs ds s t : List Char} (hcs : ∀ c ∈ cs, p c = true)
    (hds : ∀ c ∈ ds, p c = true) (hs : ∀ c ∈ s.head?, p c = false)
    (ht : ∀ c ∈ t.head?, p c = false) (same : cs ++ s = ds ++ t) : cs = ds ∧ s = t := by
  have left := Decimal.takeWhile_dropWhile_append hcs hs
  have right := Decimal.takeWhile_dropWhile_append hds ht
  rw [same] at left
  exact ⟨left.1.symm.trans right.1, left.2.symm.trans right.2⟩

/-- Letters, digits and underscores, with no digit in front. -/
def isPlainName (name : String) : Bool :=
  match name.toList with
  | [] => false
  | c :: cs => (c.isAlpha || c = '_') && cs.all fun d => d.isAlphanum || d = '_'

/-- A column and its qualifier, if there is one, have plain names. -/
def PlainColumn (q : Option String) (name : String) : Prop :=
  (∀ s ∈ q, isPlainName s = true) ∧ isPlainName name = true

def Literal.IsFinite : Literal → Prop
  | float x => x.isFinite = true
  | _ => True

section Literals

variable {l m : Literal} {s t : List Char}

theorem quoted_append_inj {a b : String} (hs : Delimited s) (ht : Delimited t)
    (same : quoted a ++ s = quoted b ++ t) : a = b ∧ s = t := by
  have stop {u : List Char} (h : Delimited u) : u.head? ≠ some '\'' := by
    intro quote
    simpa using h '\'' quote
  have read {a : String} {u : List Char} (h : Delimited u) :
      undoubled? '\'' ((quoted a ++ u).drop 1) = some (a.toList, u) := by
    rw [quoted, List.append_assoc, List.cons_append, List.drop_one, List.tail_cons,
      List.singleton_append]
    exact undoubled?_doubled (stop h)
  have eq := (read hs).symm.trans (same ▸ read ht)
  rw [Option.some.injEq, Prod.mk.injEq, String.toList_inj] at eq
  exact eq

open Decimal.FloatText (IsNumeral)

theorem Delimited.isNumeral_eq_false (h : Delimited s) :
    ∀ c ∈ s.head?, decide (IsNumeral c) = false := by
  intro c hc
  rcases h c hc with rfl | rfl | rfl <;> rfl

/-- What is no string is written without quotes. -/
theorem Literal.isNumeral_of_mem_chars (hl : l.IsFinite) (number : ∀ a, l ≠ text a) :
    ∀ c ∈ l.chars, IsNumeral c := by
  intro c hc
  cases l with
  | text a => exact absurd rfl (number a)
  | int n =>
    rcases Decimal.isDigit_or_eq_of_mem_toString hc with digit | rfl
    · exact .inl digit
    · decide
  | float x => exact Decimal.FloatText.isNumeral_of_mem_write hl hc

theorem Literal.chars_int_ne_float {n : Int64} {x : Float} (finite : x.isFinite) :
    (int n).chars ≠ (float x).chars := by
  intro same
  obtain ⟨c, hc, mark⟩ := Decimal.FloatText.exists_mem_write (t := .display) finite
  have written : c ∈ (int n).chars := same ▸ hc
  rcases Decimal.isDigit_or_eq_of_mem_toString written with digit | rfl
  · rcases mark with rfl | rfl <;> cases digit
  · rcases mark with mark | mark <;> cases mark

theorem Literal.chars_injective_of_number (hl : l.IsFinite) (hm : m.IsFinite)
    (number : ∀ a, l ≠ text a) (number' : ∀ a, m ≠ text a) (same : l.chars = m.chars) : l = m := by
  cases l with
  | text a => exact absurd rfl (number a)
  | int n =>
    cases m with
    | text b => exact absurd rfl (number' b)
    | int k => rw [Int64.toInt_inj.mp (Decimal.toList_toString_injective same)]
    | float y => exact absurd same (chars_int_ne_float hm)
  | float x =>
    cases m with
    | text b => exact absurd rfl (number' b)
    | int k => exact absurd same.symm (chars_int_ne_float hl)
    | float y => rw [Decimal.FloatText.write_injective hl hm (String.toList_inj.mp same)]

theorem Literal.quoted_append_ne (hm : m.IsFinite) (number : ∀ a, m ≠ text a) (ht : Delimited t)
    (a : String) : quoted a ++ s ≠ m.chars ++ t := by
  intro same
  have numerals := isNumeral_of_mem_chars hm number
  cases written : m.chars with
  | nil =>
    rw [written, List.nil_append] at same
    subst same
    rcases ht '\'' rfl with h | h | h <;> cases h
  | cons c cs =>
    rw [written] at same numerals
    rw [quoted, List.append_assoc, List.cons_append, List.cons_append, List.cons_append,
      List.cons.injEq] at same
    obtain ⟨rfl, -⟩ := same
    exact absurd (numerals '\'' List.mem_cons_self) (by decide)

theorem Literal.number_append_inj (hl : l.IsFinite) (hm : m.IsFinite) (number : ∀ a, l ≠ text a)
    (number' : ∀ a, m ≠ text a) (hs : Delimited s) (ht : Delimited t)
    (same : l.chars ++ s = m.chars ++ t) : l = m ∧ s = t := by
  have numerals := isNumeral_of_mem_chars hl number
  have numerals' := isNumeral_of_mem_chars hm number'
  have split := append_inj_of_stop (fun c hc => decide_eq_true (numerals c hc))
    (fun c hc => decide_eq_true (numerals' c hc)) hs.isNumeral_eq_false ht.isNumeral_eq_false same
  exact ⟨chars_injective_of_number hl hm number number' split.1, split.2⟩

/-- A literal is read off the front of a text. -/
theorem Literal.chars_append_inj (hl : l.IsFinite) (hm : m.IsFinite) (hs : Delimited s)
    (ht : Delimited t) (same : l.chars ++ s = m.chars ++ t) : l = m ∧ s = t := by
  cases l with
  | text a =>
    cases m with
    | text b =>
      obtain ⟨rfl, rest⟩ := quoted_append_inj hs ht same
      exact ⟨rfl, rest⟩
    | int k | float y => exact absurd same (quoted_append_ne hm nofun ht a)
  | int n | float x =>
    cases m with
    | text b => exact absurd same.symm (quoted_append_ne hl nofun hs b)
    | int k | float y => exact number_append_inj hl hm nofun nofun hs ht same

end Literals

section Columns

variable {q q' : Option String} {name name' : String} {s t : List Char}

def IsNameChar (c : Char) : Prop := c.isAlphanum = true ∨ c = '_'

instance : DecidablePred IsNameChar := fun c =>
  inferInstanceAs (Decidable (c.isAlphanum = true ∨ c = '_'))

theorem isNameChar_of_mem (plain : isPlainName name = true) : ∀ c ∈ name.toList, IsNameChar c := by
  unfold isPlainName at plain
  split at plain
  · cases plain
  · rename_i c cs chars
    rw [chars, List.forall_mem_cons]
    simp only [Bool.and_eq_true, Bool.or_eq_true, decide_eq_true_eq, List.all_eq_true] at plain
    refine ⟨plain.1.imp_left ?_, plain.2⟩
    intro alpha
    rw [Char.isAlphanum, alpha, Bool.true_or]

theorem ne_empty_of_isPlainName (plain : isPlainName name = true) : name.toList ≠ [] := by
  intro empty
  rw [isPlainName, empty] at plain
  cases plain

theorem PlainColumn.isNameChar (h : PlainColumn q name) :
    ∀ c ∈ (Expr.column q name).chars, IsNameChar c ∨ c = '.' := by
  intro c hc
  cases q with
  | none => exact .inl (isNameChar_of_mem h.2 c hc)
  | some q =>
    rw [Expr.chars, List.mem_append, List.mem_cons] at hc
    rcases hc with hc | rfl | hc
    · exact .inl (isNameChar_of_mem (h.1 q rfl) c hc)
    · exact .inr rfl
    · exact .inl (isNameChar_of_mem h.2 c hc)

theorem PlainColumn.chars_injective (h : PlainColumn q name) (h' : PlainColumn q' name')
    (same : (Expr.column q name).chars = (Expr.column q' name').chars) : q = q' ∧ name = name' := by
  have point {a b c : String} (plain : isPlainName a = true) :
      a.toList ≠ b.toList ++ '.' :: c.toList := by
    intro same
    exact absurd (isNameChar_of_mem plain '.' (by simp [same])) (by decide)
  cases q with
  | none =>
    cases q' with
    | none => exact ⟨rfl, String.toList_inj.mp same⟩
    | some q' => exact absurd same (point h.2)
  | some q =>
    cases q' with
    | none => exact absurd same.symm (point h'.2)
    | some q' =>
      have stop {a : String} (plain : isPlainName a = true) :
          ∀ c ∈ a.toList, (c != '.') = true := by
        intro c hc
        rw [bne_iff_ne]
        rintro rfl
        exact absurd (isNameChar_of_mem plain '.' hc) (by decide)
      have split := append_inj_of_stop (stop (h.1 q rfl)) (stop (h'.1 q' rfl)) (by simp) (by simp)
        same
      rw [String.toList_inj, List.cons.injEq, String.toList_inj] at split
      exact ⟨by rw [split.1], split.2.2⟩

/-- A column is read off the front of a text. -/
theorem PlainColumn.chars_append_inj (h : PlainColumn q name) (h' : PlainColumn q' name')
    (hs : s.head? = some ' ') (ht : t.head? = some ' ')
    (same : (Expr.column q name).chars ++ s = (Expr.column q' name').chars ++ t) :
    q = q' ∧ name = name' ∧ s = t := by
  have stop {q : Option String} {name : String} (h : PlainColumn q name) :
      ∀ c ∈ (Expr.column q name).chars, (c != ' ') = true := by
    intro c hc
    rw [bne_iff_ne]
    rintro rfl
    exact absurd (h.isNameChar ' ' hc) (by decide)
  have split := append_inj_of_stop (stop h) (stop h') (by simp [hs]) (by simp [ht]) same
  obtain ⟨rfl, rfl⟩ := h.chars_injective h' split.1
  exact ⟨rfl, rfl, split.2⟩

/-- A column does not start with a parenthesis. -/
theorem PlainColumn.append_ne_enclosed (h : PlainColumn q name) (s t : List Char) :
    (Expr.column q name).chars ++ s ≠ '(' :: t := by
  intro same
  cases written : (Expr.column q name).chars with
  | nil =>
    cases q with
    | none => exact ne_empty_of_isPlainName h.2 written
    | some q => simp [Expr.chars] at written
  | cons c cs =>
    rw [written, List.cons_append, List.cons.injEq] at same
    obtain ⟨rfl, -⟩ := same
    exact absurd (h.isNameChar '(' (by simp [written])) (by decide)

end Columns

namespace Link

theorem head?_chars_append (k : Link) (s : List Char) : (k.chars ++ s).head? = some ' ' := by
  cases k <;> rfl

/-- Links differ in the first letter of their text. -/
theorem chars_append_inj {k k' : Link} {s t : List Char} (same : k.chars ++ s = k'.chars ++ t) :
    k = k' ∧ s = t := by
  have letter (k : Link) (s : List Char) : (k.chars ++ s)[1]? = k.chars[1]? := by
    apply List.getElem?_append_left
    cases k <;> decide
  have distinct : ∀ k k' : Link, k.chars[1]? = k'.chars[1]? → k = k' := by
    intro k k'
    cases k <;> cases k' <;> decide
  obtain rfl := distinct k k' (by rw [← letter k s, same, letter])
  exact ⟨rfl, List.append_cancel_left same⟩

end Link

namespace Expr

variable {c e f l r : Expr} {s t : List Char}

theorem chars_and : (and l r).chars = '(' :: l.chars ++ Link.and.chars ++ r.chars ++ [')'] := by
  rw [chars]
  rfl

theorem chars_or : (or l r).chars = '(' :: l.chars ++ Link.or.chars ++ r.chars ++ [')'] := by
  rw [chars]
  rfl

/-- The text after the link of a comparison. -/
def answer : Expr → List Char
  | eq _ value => value.chars
  | isIn _ items => charsList items ++ [')']
  | between _ low high => low.chars ++ Link.and.chars ++ high.chars
  | like _ pattern => quoted pattern
  | _ => []

theorem Comparison.exists_link (h : Comparison Literal.IsFinite c e) :
    ∃ k : Link, e.link? = some k ∧ e.chars = c.chars ++ (k.chars ++ e.answer) := by
  cases h with
  | eq value =>
    refine ⟨.eq, rfl, ?_⟩
    rw [chars, List.append_assoc]
    rfl
  | isIn value values =>
    refine ⟨.isIn, rfl, ?_⟩
    rw [chars, List.append_assoc, List.append_assoc]
    rfl
  | between low high =>
    refine ⟨.between, rfl, ?_⟩
    rw [chars, answer]
    simp only [List.append_assoc]
    rfl
  | like pattern =>
    refine ⟨.like, rfl, ?_⟩
    rw [chars, List.append_assoc]
    rfl

theorem delimited_closed (s : List Char) : Delimited (')' :: s) := by simp [Delimited]

/-- The elements of a list are read off the front of a text, up to a closing parenthesis. -/
theorem charsList_append_inj {l m : Literal} {ls ms : List Literal} (hl : l.IsFinite)
    (hls : ∀ v ∈ ls, v.IsFinite) (hm : m.IsFinite) (hms : ∀ v ∈ ms, v.IsFinite)
    (same : charsList (literal l :: ls.map literal) ++ ')' :: s =
      charsList (literal m :: ms.map literal) ++ ')' :: t) : l = m ∧ ls = ms ∧ s = t := by
  have more (l l' : Literal) (ls : List Literal) (u : List Char) :
      charsList (literal l :: (l' :: ls).map literal) ++ ')' :: u =
        l.chars ++ ',' :: ' ' :: (charsList (literal l' :: ls.map literal) ++ ')' :: u) := by
    rw [List.map_cons, charsList, chars, List.append_assoc, List.append_assoc]
    · rfl
    · intro empty
      cases empty
  have comma (u : List Char) : Delimited (',' :: u) := by simp [Delimited]
  induction ls generalizing l m ms with
  | nil =>
    rw [List.map_nil, charsList, chars] at same
    cases ms with
    | nil =>
      rw [List.map_nil, charsList, chars] at same
      have split := Literal.chars_append_inj hl hm (delimited_closed s) (delimited_closed t) same
      rw [List.cons.injEq] at split
      exact ⟨split.1, rfl, split.2.2⟩
    | cons m' ms =>
      rw [more] at same
      have split := Literal.chars_append_inj hl hm (delimited_closed s) (comma _) same
      simp at split
  | cons l' ls ih =>
    rw [List.forall_mem_cons] at hls
    rw [more] at same
    cases ms with
    | nil =>
      rw [List.map_nil, charsList, chars] at same
      have split := Literal.chars_append_inj hl hm (comma _) (delimited_closed t) same
      simp at split
    | cons m' ms =>
      rw [List.forall_mem_cons] at hms
      rw [more] at same
      have split := Literal.chars_append_inj hl hm (comma _) (comma _) same
      rw [List.cons.injEq, List.cons.injEq] at split
      obtain ⟨rfl, -, -, rest⟩ := split
      obtain ⟨rfl, rfl, rfl⟩ := ih hls.1 hls.2 hms.1 hms.2 rest
      exact ⟨rfl, rfl, rfl⟩

theorem Comparison.answer_append_inj (h : Comparison Literal.IsFinite c e)
    (h' : Comparison Literal.IsFinite c f) (linked : e.link? = f.link?) (hs : Delimited s)
    (ht : Delimited t) (same : e.answer ++ s = f.answer ++ t) : e = f ∧ s = t := by
  cases h with
  | eq value =>
    cases h' with
    | eq value' =>
      rw [answer, answer, chars, chars] at same
      obtain ⟨rfl, rfl⟩ := Literal.chars_append_inj value value' hs ht same
      exact ⟨rfl, rfl⟩
    | _ => cases linked
  | isIn value values =>
    cases h' with
    | isIn value' values' =>
      rw [answer, answer, List.append_assoc, List.append_assoc] at same
      obtain ⟨rfl, rfl, rfl⟩ := charsList_append_inj value values value' values' same
      exact ⟨rfl, rfl⟩
    | _ => cases linked
  | between lowValue highValue =>
    cases h' with
    | between lowValue' highValue' =>
      simp only [answer, chars, List.append_assoc] at same
      have ended := Link.and.separates.delimits
      obtain ⟨rfl, rest⟩ := Literal.chars_append_inj lowValue lowValue' (ended _) (ended _) same
      have split := (Link.chars_append_inj rest).2
      obtain ⟨rfl, rfl⟩ := Literal.chars_append_inj highValue highValue' hs ht split
      exact ⟨rfl, rfl⟩
    | _ => cases linked
  | like pattern =>
    cases h' with
    | like pattern' =>
      obtain ⟨rfl, rfl⟩ := quoted_append_inj hs ht same
      exact ⟨rfl, rfl⟩
    | _ => cases linked

/-- Expressions in parentheses are read off the front of a text if their parts are. -/
theorem enclosed_append_inj {k k' : Link} {l' r' : Expr}
    (left : ∀ {u v}, Delimited u → Delimited v → l.chars ++ u = l'.chars ++ v → l = l' ∧ u = v)
    (right : ∀ {u v}, Delimited u → Delimited v → r.chars ++ u = r'.chars ++ v → r = r' ∧ u = v)
    (same : '(' :: l.chars ++ k.chars ++ r.chars ++ [')'] ++ s =
      '(' :: l'.chars ++ k'.chars ++ r'.chars ++ [')'] ++ t) :
    k = k' ∧ l = l' ∧ r = r' ∧ s = t := by
  simp only [List.append_assoc, List.cons_append, List.cons.injEq, true_and, List.nil_append]
    at same
  obtain ⟨rfl, linked⟩ := left (k.separates.delimits _) (k'.separates.delimits _) same
  obtain ⟨rfl, rest⟩ := Link.chars_append_inj linked
  obtain ⟨rfl, closed⟩ := right (delimited_closed s) (delimited_closed t) rest
  rw [List.cons.injEq] at closed
  exact ⟨rfl, rfl, rfl, closed.2⟩

/-- A condition is read off the front of a text. -/
theorem Condition.chars_append_inj (h : e.Condition PlainColumn Literal.IsFinite)
    (h' : f.Condition PlainColumn Literal.IsFinite) (hs : Delimited s) (ht : Delimited t)
    (same : e.chars ++ s = f.chars ++ t) : e = f ∧ s = t := by
  induction h generalizing f s t with
  | comparison named compares =>
    obtain ⟨k, linked, written⟩ := compares.exists_link
    rw [written, List.append_assoc] at same
    cases h' with
    | comparison named' compares' =>
      obtain ⟨k', linked', written'⟩ := compares'.exists_link
      rw [written', List.append_assoc, List.append_assoc, List.append_assoc] at same
      obtain ⟨rfl, rfl, rest⟩ := named.chars_append_inj named' (k.head?_chars_append _)
        (k'.head?_chars_append _) same
      obtain ⟨rfl, answers⟩ := Link.chars_append_inj rest
      exact compares.answer_append_inj compares' (linked.trans linked'.symm) hs ht answers
    | and left' right' =>
      rw [chars_and] at same
      exact absurd same (named.append_ne_enclosed _ _)
    | or left' right' =>
      rw [chars_or] at same
      exact absurd same (named.append_ne_enclosed _ _)
  | and left right ihl ihr =>
    rw [chars_and] at same
    cases h' with
    | comparison named' compares' =>
      obtain ⟨k', -, written'⟩ := compares'.exists_link
      rw [written', List.append_assoc _ _ t] at same
      exact absurd same.symm (named'.append_ne_enclosed _ _)
    | and left' right' =>
      rw [chars_and] at same
      obtain ⟨-, rfl, rfl, rfl⟩ := enclosed_append_inj (ihl left') (ihr right') same
      exact ⟨rfl, rfl⟩
    | or left' right' =>
      rw [chars_or] at same
      cases (enclosed_append_inj (ihl left') (ihr right') same).1
  | or left right ihl ihr =>
    rw [chars_or] at same
    cases h' with
    | comparison named' compares' =>
      obtain ⟨k', -, written'⟩ := compares'.exists_link
      rw [written', List.append_assoc _ _ t] at same
      exact absurd same.symm (named'.append_ne_enclosed _ _)
    | and left' right' =>
      rw [chars_and] at same
      cases (enclosed_append_inj (ihl left') (ihr right') same).1
    | or left' right' =>
      rw [chars_or] at same
      obtain ⟨-, rfl, rfl, rfl⟩ := enclosed_append_inj (ihl left') (ihr right') same
      exact ⟨rfl, rfl⟩

theorem Condition.eq_of_text_eq (h : e.Condition PlainColumn Literal.IsFinite)
    (h' : f.Condition PlainColumn Literal.IsFinite) (same : e.text = f.text) : e = f := by
  rw [text, text, String.ofList_inj] at same
  have ended : Delimited [] := by simp [Delimited]
  exact (h.chars_append_inj h' ended ended (by rw [same])).1

end Expr

end DataAccess.Sql
