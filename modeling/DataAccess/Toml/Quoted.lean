import DataAccess.Text.Hex
import DataAccess.Text.Rest

/-!
# TOML strings

Basic strings have escapes and literal ones have none. Either kind may run over several lines
between three quotes; a line break right after these is dropped, and up to two quotes may stand
before the closing ones.
-/

namespace DataAccess.Toml

open Text

def isSpace (c : Char) : Bool := c = ' ' || c = '\t'

/-- The characters that comments and strings may hold as they are. -/
def isPlain (c : Char) : Bool := c = '\t' || (32 ≤ c.toNat && c.toNat ≠ 127)

def skip (cs : List Char) : List Char := cs.dropWhile isSpace

theorem length_skip_le (cs : List Char) : (skip cs).length ≤ cs.length :=
  (List.dropWhile_sublist _).length_le

/-- The text after a line break, if it starts with one. -/
def newline? : List Char → Option (List Char)
  | '\n' :: cs => some cs
  | '\r' :: '\n' :: cs => some cs
  | _ => none

/-- Passes over blanks and line breaks. -/
def dropBreaks : List Char → List Char
  | ' ' :: cs => dropBreaks cs
  | '\t' :: cs => dropBreaks cs
  | '\n' :: cs => dropBreaks cs
  | '\r' :: '\n' :: cs => dropBreaks cs
  | cs => cs

theorem length_dropBreaks_le (cs : List Char) : (dropBreaks cs).length ≤ cs.length := by
  fun_induction dropBreaks cs with
  | case5 => exact Nat.le_refl _
  | _ => simp only [List.length_cons]; omega

namespace Quoted

/-- The character behind a short escape. -/
def short? : Char → Option Char
  | 'b' => some '\x08'
  | 't' => some '\t'
  | 'n' => some '\n'
  | 'f' => some '\x0c'
  | 'r' => some '\r'
  | '"' => some '"'
  | '\\' => some '\\'
  | _ => none

def codePoint? (digits : List Char) : Option Char := do
  let n ← hexDigits? digits
  if n.isValidChar then some (Char.ofNat n) else none

/-- The character behind an escape whose backslash was taken off. -/
def escape? : (cs : List Char) → Option (Char × Rest cs)
  | 'u' :: a :: b :: c :: d :: cs =>
    (codePoint? [a, b, c, d]).map (·, ⟨cs, by simp only [List.length_cons]; omega⟩)
  | 'U' :: a :: b :: c :: d :: e :: f :: g :: h :: cs =>
    (codePoint? [a, b, c, d, e, f, g, h]).map (·, ⟨cs, by simp only [List.length_cons]; omega⟩)
  | c :: cs => (short? c).map (·, .tail c cs)
  | [] => none

/-- Reads a basic string after its opening quote. -/
def basic? (cs : List Char) : Option (List Char × Rest cs) :=
  match cs with
  | [] => none
  | '"' :: cs => some ([], .tail _ cs)
  | '\\' :: cs => do
    let (c, ⟨t, _⟩) ← escape? cs
    (basic? t).map fun (s, r) => (c :: s, .cons _ (.widen (Nat.le_of_lt ‹_›) r))
  | c :: cs => if isPlain c then (basic? cs).map fun (s, r) => (c :: s, .cons _ r) else none
termination_by cs.length
decreasing_by all_goals simp_all only [List.length_cons]; omega

/-- Reads a literal string after its opening quote. -/
def literal? (cs : List Char) : Option (List Char × Rest cs) :=
  match cs with
  | [] => none
  | '\'' :: cs => some ([], .tail _ cs)
  | c :: cs => if isPlain c then (literal? cs).map fun (s, r) => (c :: s, .cons _ r) else none

/-- The end of a string over several lines after three closing quotes: the quotes before them. -/
def closing (mark : Char) : (cs : List Char) → List Char × { r : List Char // r.length ≤ cs.length }
  | a :: b :: cs =>
    if a = mark then
      if b = mark then ([mark, mark], ⟨cs, by simp only [List.length_cons]; omega⟩)
      else ([mark], ⟨b :: cs, Nat.le_succ _⟩)
    else ([], ⟨a :: b :: cs, Nat.le_refl _⟩)
  | [a] => if a = mark then ([mark], ⟨[], Nat.zero_le _⟩) else ([], ⟨[a], Nat.le_refl _⟩)
  | [] => ([], ⟨[], Nat.le_refl _⟩)

/-- Reads a basic string over several lines. A backslash at the end of a line takes all blanks and
line breaks after it away. -/
def basicLines? (cs : List Char) : Option (List Char × Rest cs) :=
  match cs with
  | [] => none
  | '"' :: '"' :: '"' :: cs =>
    let (s, r) := closing '"' cs
    some (s, ⟨r.1, by have := r.2; simp only [List.length_cons]; omega⟩)
  | '\\' :: cs =>
    if (newline? (skip cs)).isSome then
      have := length_dropBreaks_le cs
      (basicLines? (dropBreaks cs)).map fun (s, r) => (s, .cons _ (.widen this r))
    else do
      let (c, ⟨t, _⟩) ← escape? cs
      (basicLines? t).map fun (s, r) => (c :: s, .cons _ (.widen (Nat.le_of_lt ‹_›) r))
  | '\r' :: '\n' :: cs => (basicLines? cs).map fun (s, r) => ('\n' :: s, .cons _ (.cons _ r))
  | c :: cs =>
    if isPlain c || c = '\n' then (basicLines? cs).map fun (s, r) => (c :: s, .cons _ r) else none
termination_by cs.length
decreasing_by all_goals simp_all only [List.length_cons]; omega

/-- Reads a literal string over several lines. -/
def literalLines? (cs : List Char) : Option (List Char × Rest cs) :=
  match cs with
  | [] => none
  | '\'' :: '\'' :: '\'' :: cs =>
    let (s, r) := closing '\'' cs
    some (s, ⟨r.1, by have := r.2; simp only [List.length_cons]; omega⟩)
  | '\r' :: '\n' :: cs => (literalLines? cs).map fun (s, r) => ('\n' :: s, .cons _ (.cons _ r))
  | c :: cs =>
    if isPlain c || c = '\n' then (literalLines? cs).map fun (s, r) => (c :: s, .cons _ r) else none

/-- The text after a line break, or all of it. -/
def afterBreak (cs : List Char) : { r : List Char // r.length ≤ cs.length } :=
  match cs with
  | '\n' :: cs => ⟨cs, Nat.le_succ _⟩
  | '\r' :: '\n' :: cs => ⟨cs, by simp only [List.length_cons]; omega⟩
  | cs => ⟨cs, Nat.le_refl _⟩

/-- Reads a string on one line, as in a key. -/
def line? : (cs : List Char) → Option (List Char × Rest cs)
  | '"' :: cs => (basic? cs).map fun (s, r) => (s, .cons _ r)
  | '\'' :: cs => (literal? cs).map fun (s, r) => (s, .cons _ r)
  | _ => none

/-- Reads a string of any kind. -/
def read? (cs : List Char) : Option (List Char × Rest cs) :=
  match cs with
  | '"' :: '"' :: '"' :: cs =>
    let t := afterBreak cs
    (basicLines? t.1).map fun (s, r) => (s, .cons _ (.cons _ (.cons _ (.widen t.2 r))))
  | '\'' :: '\'' :: '\'' :: cs =>
    let t := afterBreak cs
    (literalLines? t.1).map fun (s, r) => (s, .cons _ (.cons _ (.cons _ (.widen t.2 r))))
  | cs => line? cs

end Quoted

end DataAccess.Toml
