import DataAccess.Json.Number
import DataAccess.Json.Quoted

/-!
# Reading JSON

RFC 8259 without extensions. Lists and tables nested more than 127 deep, numbers beyond the range
and strings with half a surrogate pair are accepted as `Document.fault`. Each step takes something
off the text, and that is why reading ends.
-/

namespace DataAccess.Json

open Text

def isSpace (c : Char) : Bool := c = ' ' || c = '\n' || c = '\t' || c = '\r'

def skip (cs : List Char) : List Char := cs.dropWhile isSpace

theorem length_skip_le (cs : List Char) : (skip cs).length ≤ cs.length :=
  (List.dropWhile_sublist _).length_le

def isNumeric (c : Char) : Bool := c.isDigit || c ∈ ['-', '+', '.', 'e', 'E']

/-- A list or table that is `depth` levels down, or a fault if that is too deep. -/
def bounded (depth : Nat) (d : Document) : Document := if depth < 127 then d else .fault

/-- Numbers and the three literal names. -/
def scalar? (cs : List Char) : Option (Document × Rest cs) :=
  match cs with
  | 't' :: 'r' :: 'u' :: 'e' :: r =>
    some (.bool true, .cons _ (.cons _ (.cons _ (.tail _ r))))
  | 'f' :: 'a' :: 'l' :: 's' :: 'e' :: r =>
    some (.bool false, .cons _ (.cons _ (.cons _ (.cons _ (.tail _ r)))))
  | 'n' :: 'u' :: 'l' :: 'l' :: r => some (.null, .cons _ (.cons _ (.cons _ (.tail _ r))))
  | c :: cs =>
    if isNumeric c then
      (number? (c :: cs.takeWhile isNumeric)).map fun n =>
        (n.document, ⟨cs.dropWhile isNumeric,
          Nat.lt_succ_of_le (List.dropWhile_sublist _).length_le⟩)
    else none
  | [] => none

mutual

def value? (depth : Nat) (cs : List Char) : Option (Document × Rest cs) :=
  match cs with
  | '"' :: t => (quoted? t).map fun (ps, r) =>
    ((quotedText? ps).elim .fault .text, .cons _ r)
  | '[' :: t =>
    have := length_skip_le t
    match h : skip t with
    | ']' :: r => some (bounded depth (.list []), ⟨r, by simp_all; omega⟩)
    | u => (items? (depth + 1) u).map fun (ds, r) =>
      (bounded depth (.list ds), ⟨r.1, by have := r.2; simp_all; omega⟩)
  | '\x7b' :: t =>
    have := length_skip_le t
    match h : skip t with
    | '\x7d' :: r => some (bounded depth (.table []), ⟨r, by simp_all; omega⟩)
    | u => (fields? (depth + 1) u).map fun (fs, r) =>
      (fs.elim .fault fun fs => bounded depth (.table fs), ⟨r.1, by have := r.2; simp_all; omega⟩)
  | cs => scalar? cs
termination_by (cs.length, 0)
decreasing_by all_goals (apply Prod.Lex.left; simp_all only [List.length_cons]; omega)

/-- The elements of a list from the first one on, up to and over the closing bracket. -/
def items? (depth : Nat) (cs : List Char) : Option (List Document × Rest cs) := do
  let (d, ⟨t, _⟩) ← value? depth cs
  have := length_skip_le t
  match h : skip t with
  | ']' :: r => some ([d], ⟨r, by simp_all; omega⟩)
  | ',' :: u =>
    have := length_skip_le u
    (items? depth (skip u)).map fun (ds, r) => (d :: ds, ⟨r.1, by have := r.2; simp_all; omega⟩)
  | _ => none
termination_by (cs.length, 1)
decreasing_by
  · exact .right _ Nat.zero_lt_one
  · exact .left _ _ (by simp_all; omega)

/-- The fields of a table from the first one on, up to and over the closing brace; absent when a
key cannot be read. -/
def fields? (depth : Nat) (cs : List Char) :
    Option (Option (List (String × Document)) × Rest cs) :=
  match cs with
  | '"' :: q => do
    let (ps, ⟨t, _⟩) ← quoted? q
    have := length_skip_le t
    match h : skip t with
    | ':' :: u =>
      have := length_skip_le u
      let (d, ⟨v, _⟩) ← value? depth (skip u)
      have := length_skip_le v
      let field := (quotedText? ps).map fun k => (k, d)
      match h' : skip v with
      | '\x7d' :: r => some (field.map ([·]), ⟨r, by simp_all; omega⟩)
      | ',' :: w =>
        have := length_skip_le w
        (fields? depth (skip w)).map fun (fs, r) =>
          (do return (← field) :: (← fs), ⟨r.1, by have := r.2; simp_all; omega⟩)
      | _ => none
    | _ => none
  | _ => none
termination_by (cs.length, 1)
decreasing_by all_goals (apply Prod.Lex.left; simp_all; omega)

end

/-- Reads the whole of a text. -/
def read? (s : String) : Option Document :=
  match value? 0 (skip s.toList) with
  | some (d, r) => if (skip r.1).isEmpty then some d else none
  | none => none

end DataAccess.Json
