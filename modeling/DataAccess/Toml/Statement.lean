import DataAccess.Toml.Quoted
import DataAccess.Toml.Scalar
import DataAccess.Toml.Table

/-!
# TOML statements

A text is a sequence of headers and of keys with their values. Lists and tables within a line nest
fewer than 80 deep, and a key has fewer than 80 parts.
-/

namespace DataAccess.Toml

open Text

inductive Statement where
  | value (key : List String) (d : Document)
  | table (key : List String)
  | tables (key : List String)

def limit : Nat := 80

/-- Passes over blanks, line breaks and comments that end in a line break. -/
def gap (comment : Bool) : List Char → List Char
  | '\r' :: '\n' :: cs => gap false cs
  | c :: cs =>
    if c = '\n' then gap false cs
    else if comment then if isPlain c then gap true cs else c :: cs
    else if isSpace c then gap false cs
    else if c = '#' then gap true cs
    else c :: cs
  | [] => []

theorem length_gap_le (comment : Bool) (cs : List Char) : (gap comment cs).length ≤ cs.length := by
  fun_induction gap comment cs <;> simp only [List.length_cons, Nat.le_refl] at * <;> omega

/-- What is left behind a gap and one more character. -/
def behindGap {cs r : List Char} {c : Char} (h : gap false cs = c :: r) : Rest cs :=
  ⟨r, by
    have := length_gap_le false cs
    rw [h, List.length_cons] at this
    exact this⟩

/-- What is left of a text that starts with a gap. -/
def acrossGap {cs : List Char} (r : Rest (gap false cs)) : Rest cs :=
  .widen (length_gap_le false cs) r

/-- What follows the end of a line, after blanks and a comment. -/
def lineEnd? (cs : List Char) : Option (List Char) :=
  match skip cs with
  | '#' :: cs =>
    match cs.dropWhile isPlain with
    | [] => some []
    | cs => newline? cs
  | [] => some []
  | cs => newline? cs

theorem length_newline?_lt {cs r : List Char} (h : newline? cs = some r) :
    r.length < cs.length := by
  unfold newline? at h
  split at h <;> cases h <;> simp only [List.length_cons] <;> omega

theorem length_lineEnd?_le {cs r : List Char} (h : lineEnd? cs = some r) :
    r.length ≤ cs.length := by
  have hs := length_skip_le cs
  unfold lineEnd? at h
  split at h
  · rename_i ds eq
    have hd := (List.dropWhile_sublist isPlain (l := ds)).length_le
    rw [eq, List.length_cons] at hs
    split at h
    · cases h
      exact Nat.zero_le _
    · have := length_newline?_lt h
      omega
  · cases h
    exact Nat.zero_le _
  · have := length_newline?_lt h
    omega

def isBare (c : Char) : Bool := c.isAlphanum || c = '_' || c = '-'

/-- One part of a key. -/
def part? (cs : List Char) : Option (String × Rest cs) :=
  match cs with
  | [] => none
  | c :: cs =>
    if c = '"' ∨ c = '\'' then (Quoted.line? (c :: cs)).map fun (s, r) => (String.ofList s, r)
    else if isBare c then
      some (String.ofList (c :: cs.takeWhile isBare),
        ⟨cs.dropWhile isBare, Nat.lt_succ_of_le (List.dropWhile_sublist _).length_le⟩)
    else none

/-- The parts of a key with points between them, and the blanks around it. -/
def parts? (cs : List Char) : Option (List String × Rest cs) := do
  let (k, ⟨t, _⟩) ← part? (skip cs)
  have := length_skip_le cs
  have := length_skip_le t
  match h : skip t with
  | '.' :: u => (parts? u).map fun (ks, r) => (k :: ks, ⟨r.1, by have := r.2; simp_all; omega⟩)
  | r => some ([k], ⟨r, by simp_all; omega⟩)
termination_by cs.length
decreasing_by simp_all; omega

def key? (cs : List Char) : Option (List String × Rest cs) :=
  (parts? cs).filter fun (ks, _) => ks.length < limit

/-- A scalar that is no string: a run of word characters, or a date and a time with one blank
between them. -/
def word (cs : List Char) : List Char × List Char :=
  let run := cs.takeWhile isWord
  let rest := cs.dropWhile isWord
  match Scalar.date? run, rest with
  | some (_, []), ' ' :: u =>
    if u.head?.any isWord then (run ++ ' ' :: u.takeWhile isWord, u.dropWhile isWord)
    else (run, rest)
  | _, _ => (run, rest)

theorem length_word_lt {c : Char} (h : isWord c) (cs : List Char) :
    (word (c :: cs)).2.length < (c :: cs).length := by
  have hd : ((c :: cs).dropWhile isWord).length ≤ cs.length := by
    rw [List.dropWhile_cons_of_pos h]
    exact (List.dropWhile_sublist _).length_le
  simp only [word]
  split
  · rename_i u _ eq
    have hu := (List.dropWhile_sublist isWord (l := u)).length_le
    rw [eq] at hd
    simp only [List.length_cons] at hd ⊢
    split <;> simp only [eq, List.length_cons] <;> omega
  · exact Nat.lt_succ_of_le hd

/-- Reads a scalar that is no string. -/
def scalar? (cs : List Char) : Option (Document × Rest cs) :=
  match cs with
  | [] => none
  | c :: cs =>
    if h : isWord c then
      (Scalar.read? (word (c :: cs)).1).map (·, ⟨(word (c :: cs)).2, length_word_lt h cs⟩)
    else none

/-- The table of keys and values within a line. -/
def inlineTable? (fields : List (List String × Document)) : Option Document :=
  (fields.foldlM (fun fs (k, d) => Fields.insert d k fs) []).map fun fs =>
    .table (Fields.documents fs)

mutual

def value? (depth : Nat) (cs : List Char) : Option (Document × Rest cs) :=
  match cs with
  | '[' :: t => if limit ≤ depth + 1 then none else (items? (depth + 1) t).map fun (ds, r) =>
    (.list ds, .cons _ r)
  | '\x7b' :: t =>
    if limit ≤ depth + 1 then none else
    have := length_skip_le t
    match h : skip t with
    | '\x7d' :: r => some (.table [], ⟨r, by simp_all; omega⟩)
    | _ => do
      let (fs, r) ← fields? (depth + 1) t
      return (← inlineTable? fs, .cons _ r)
  | '"' :: t => (Quoted.read? ('"' :: t)).map fun (s, r) => (.text (String.ofList s), r)
  | '\'' :: t => (Quoted.read? ('\'' :: t)).map fun (s, r) => (.text (String.ofList s), r)
  | cs => scalar? cs
termination_by (cs.length, 0)
decreasing_by all_goals (apply Prod.Lex.left; simp_all)

/-- The elements of a list up to and over the closing bracket. A comma may stand after the last. -/
def items? (depth : Nat) (cs : List Char) : Option (List Document × Rest cs) :=
  match h : gap false cs with
  | ']' :: _ => some ([], behindGap h)
  | _ => do
    let (d, t) ← value? depth (gap false cs)
    match h' : gap false t.1 with
    | ']' :: _ => some ([d], (acrossGap t).trans (behindGap h'))
    | ',' :: w => (items? depth w).map fun (ds, r) =>
      (d :: ds, ((acrossGap t).trans (behindGap h')).trans r)
    | _ => none
termination_by (cs.length, 1)
decreasing_by
  · rcases Nat.lt_or_eq_of_le (length_gap_le false cs) with lt | eq
    · exact .left _ _ lt
    · exact eq ▸ .right _ Nat.zero_lt_one
  · exact .left _ _ ((acrossGap t).trans (behindGap h')).2

/-- The fields of a table within a line, up to and over the closing brace. -/
def fields? (depth : Nat) (cs : List Char) : Option (List (List String × Document) × Rest cs) := do
  let (k, ⟨t, _⟩) ← key? cs
  match _e : t with
  | '=' :: u =>
    have := length_skip_le u
    let (d, ⟨v, _⟩) ← value? depth (skip u)
    have := length_skip_le v
    match h : skip v with
    | '\x7d' :: r => some ([(k, d)], ⟨r, by simp_all; omega⟩)
    | ',' :: w =>
      (fields? depth w).map fun (fs, r) => ((k, d) :: fs, ⟨r.1, by have := r.2; simp_all; omega⟩)
    | _ => none
  | _ => none
termination_by (cs.length, 1)
decreasing_by all_goals (apply Prod.Lex.left; simp_all; omega)

end

/-- Reads one statement without the end of its line. -/
def statement? (cs : List Char) : Option (Statement × Rest cs) :=
  match cs with
  | '[' :: '[' :: cs => do
    let (k, ⟨t, _⟩) ← key? cs
    match _e : t with
    | ']' :: ']' :: r => some (.tables k, ⟨r, by simp_all; omega⟩)
    | _ => none
  | '[' :: cs => do
    let (k, ⟨t, _⟩) ← key? cs
    match _e : t with
    | ']' :: r => some (.table k, ⟨r, by simp_all; omega⟩)
    | _ => none
  | cs => do
    let (k, ⟨t, _⟩) ← key? cs
    match _e : t with
    | '=' :: u =>
      have := length_skip_le u
      (value? 0 (skip u)).map fun (d, r) => (.value k d, ⟨r.1, by have := r.2; simp_all; omega⟩)
    | _ => none

/-- Reads the statements of a text. -/
def statements? (cs : List Char) : Option (List Statement) :=
  have := length_skip_le cs
  match _h : skip cs with
  | [] => some []
  | '\n' :: r => statements? r
  | '\r' :: '\n' :: r => statements? r
  | '#' :: r =>
    have := (List.dropWhile_sublist isPlain (l := r)).length_le
    statements? (r.dropWhile isPlain)
  | t => do
    let (s, ⟨u, _⟩) ← statement? t
    match h' : lineEnd? u with
    | some v =>
      have := length_lineEnd?_le h'
      return s :: (← statements? v)
    | none => none
termination_by cs.length
decreasing_by all_goals simp_all only [List.length_cons]; omega

end DataAccess.Toml
