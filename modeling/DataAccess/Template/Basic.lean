import DataAccess.Text.Blank

/-!
# Templates

Texts with placeholders, a name between a dollar sign with an opening brace and a closing brace.
A template is read into pieces, whose texts put together are the template (`text_pieces`).
-/

namespace DataAccess.Template

inductive Piece where
  | char (c : Char)
  | hole (name : List Char)
deriving DecidableEq

def Piece.text : Piece → List Char
  | char c => [c]
  | hole name => '$' :: '\x7b' :: name ++ ['\x7d']

def text (ps : List Piece) : List Char := ps.flatMap Piece.text

def holes : List Piece → List (List Char)
  | [] => []
  | .char _ :: ps => holes ps
  | .hole name :: ps => name :: holes ps

/-- The number of bytes in UTF-8. -/
def size : List Char → Nat
  | [] => 0
  | c :: cs => c.utf8Size + size cs

inductive Fault where
  | unterminated (offset : Nat)
  | empty (offset : Nat)
deriving DecidableEq

def Fault.message : Fault → String
  | unterminated offset => s!"unterminated placeholder at offset {offset}"
  | empty offset => s!"empty placeholder at offset {offset}"

/-- The name of a placeholder whose opening mark was taken off, and what follows it. -/
def closing? : List Char → Option (List Char × List Char)
  | [] => none
  | c :: cs =>
    if c = '\x7d' then some ([], cs) else (closing? cs).map fun (name, rest) => (c :: name, rest)

theorem eq_of_closing? {cs name rest : List Char} (h : closing? cs = some (name, rest)) :
    cs = name ++ '\x7d' :: rest := by
  induction cs generalizing name with
  | nil => simp [closing?] at h
  | cons c cs ih =>
    simp only [closing?] at h
    split at h
    · rename_i eq
      cases h
      simp [eq]
    · obtain ⟨⟨n, r⟩, hn, eq⟩ := Option.map_eq_some_iff.1 h
      cases eq
      simp [ih hn]

/-- Reads a template that starts at a byte offset. -/
def pieces (offset : Nat) (cs : List Char) : Except Fault (List Piece) :=
  match cs with
  | [] => .ok []
  | '$' :: '\x7b' :: rest =>
    match _h : closing? rest with
    | none => .error (.unterminated offset)
    | some ([], _) => .error (.empty offset)
    | some (c :: name, after) =>
      (pieces (offset + size (Piece.hole (c :: name)).text) after).map (.hole (c :: name) :: ·)
  | c :: rest => (pieces (offset + c.utf8Size) rest).map (.char c :: ·)
termination_by cs.length
decreasing_by
  · have := eq_of_closing? _h
    subst this
    simp only [List.length_append, List.length_cons]
    omega
  · exact Nat.lt_succ_self _

theorem text_pieces {offset : Nat} {cs : List Char} {ps : List Piece}
    (h : pieces offset cs = .ok ps) : text ps = cs := by
  fun_induction pieces offset cs generalizing ps with
  | case1 => cases h; rfl
  | case2 | case3 => cases h
  | case4 offset rest c name after hc ih =>
    match hp : pieces (offset + size (Piece.hole (c :: name)).text) after with
    | .error _ => simp [hp, Except.map] at h
    | .ok qs =>
      simp only [hp, Except.map, Except.ok.injEq] at h
      rw [eq_of_closing? hc, ← h]
      simp [text, Piece.text, ← ih hp]
  | case5 offset c rest _ ih =>
    match hp : pieces (offset + c.utf8Size) rest with
    | .error _ => simp [hp, Except.map] at h
    | .ok qs =>
      simp only [hp, Except.map, Except.ok.injEq] at h
      rw [← h]
      simp [text, Piece.text, ← ih hp]

/-- A placeholder in a template, with the byte offsets of its start and of what follows it. -/
structure Placeholder where
  name : String
  start : Nat
  stop : Nat
deriving DecidableEq

/-- The placeholders of a template that starts at a byte offset. -/
def placeholders (offset : Nat) : List Piece → List Placeholder
  | [] => []
  | .char c :: ps => placeholders (offset + c.utf8Size) ps
  | .hole name :: ps =>
    let stop := offset + size (Piece.hole name).text
    ⟨String.ofList name, offset, stop⟩ :: placeholders stop ps

/-- Finds every placeholder, in order of appearance. -/
def scan (s : String) : Except Fault (List Placeholder) := (pieces 0 s.toList).map (placeholders 0)

/-- The name of a text that is one placeholder and nothing else but blanks. -/
def soleName? (s : String) : Option String :=
  match Text.strip s.toList with
  | '$' :: '\x7b' :: rest =>
    let name := rest.dropLast
    if rest.getLast? = some '\x7d' ∧ name ≠ [] ∧ '\x7b' ∉ name ∧ '\x7d' ∉ name then
      some (String.ofList name)
    else none
  | _ => none

end DataAccess.Template
