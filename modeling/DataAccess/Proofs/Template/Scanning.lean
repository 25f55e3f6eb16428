import DataAccess.Proofs.Success
import DataAccess.Template.Basic

/-!
# Scanning

A placeholder ends at the first closing brace behind its opening mark. Rules take a text for a
variable when it is one placeholder and no more, and so does a scan, but only a scan lets an opening
brace into a name: the two agree on all texts but those with such a name
(`recognizers_agree_iff`).
-/

namespace DataAccess.Template

variable {cs ds name rest : List Char} {ps : List Piece} {offset : Nat}

theorem size_eq_utf8ByteSize (cs : List Char) : size cs = (String.ofList cs).utf8ByteSize := by
  induction cs with
  | nil => rfl
  | cons c cs ih =>
    rw [size, ih, String.ofList_cons, String.utf8ByteSize_append, String.utf8ByteSize_singleton]

theorem size_toList (s : String) : size s.toList = s.utf8ByteSize := by
  rw [size_eq_utf8ByteSize, String.ofList_toList]

@[simp] theorem size_append : size (cs ++ ds) = size cs + size ds := by
  induction cs with
  | nil => simp [size]
  | cons c cs ih => rw [List.cons_append, size, ih, size, Nat.add_assoc]

theorem size_eq_zero_iff : size cs = 0 ↔ cs = [] := by
  cases cs with
  | nil => simp [size]
  | cons c cs => simp [size, Nat.ne_of_gt c.utf8Size_pos]

theorem closing?_eq_some_iff :
    closing? cs = some (name, rest) ↔ cs = name ++ '\x7d' :: rest ∧ '\x7d' ∉ name := by
  constructor
  · intro h
    refine ⟨eq_of_closing? h, ?_⟩
    induction cs generalizing name with
    | nil => simp [closing?] at h
    | cons c cs ih =>
      rw [closing?] at h
      split at h
      · cases h
        exact List.not_mem_nil
      · rename_i other
        obtain ⟨⟨n, r⟩, read, eq⟩ := Option.map_eq_some_iff.1 h
        cases eq
        exact List.not_mem_cons_of_ne_of_not_mem (Ne.symm other) (ih read)
  · rintro ⟨rfl, free⟩
    induction name with
    | nil => simp [closing?]
    | cons c name ih =>
      rw [List.mem_cons, not_or] at free
      rw [List.cons_append, closing?, if_neg (Ne.symm free.1), ih free.2]
      rfl

theorem closing?_eq_none_iff : closing? cs = none ↔ '\x7d' ∉ cs := by
  induction cs with
  | nil => simp [closing?]
  | cons c cs ih =>
    rw [closing?, List.mem_cons, not_or, ← ih]
    by_cases ends : c = '\x7d'
    · simp [ends]
    · simp [ends, Ne.symm ends]

/-- What stands between the marks of a placeholder. -/
structure IsName (name : List Char) : Prop where
  nonempty : name ≠ []
  free : '\x7d' ∉ name

/-- What is read from an opening mark on. -/
theorem pieces_mark :
    pieces offset ('$' :: '\x7b' :: rest) = match closing? rest with
      | none => .error (.unterminated offset)
      | some ([], _) => .error (.empty offset)
      | some (c :: name, after) =>
        (pieces (offset + size (Piece.hole (c :: name)).text) after).map
          (.hole (c :: name) :: ·) := by
  rw [pieces]
  split
  all_goals
    rename_i read
    rw [read]

/-- A placeholder at the front of a template is a piece of it. -/
theorem pieces_hole (h : IsName name) :
    pieces offset ((Piece.hole name).text ++ rest) =
      (pieces (offset + size (Piece.hole name).text) rest).map (.hole name :: ·) := by
  obtain ⟨c, name, rfl⟩ := List.exists_cons_of_ne_nil h.nonempty
  have front : (Piece.hole (c :: name)).text ++ rest =
      '$' :: '\x7b' :: (c :: name ++ '\x7d' :: rest) := by
    simp [Piece.text]
  have closes : closing? (c :: name ++ '\x7d' :: rest) = some (c :: name, rest) :=
    closing?_eq_some_iff.2 ⟨rfl, h.free⟩
  rw [front, pieces_mark, closes]

theorem isName_of_mem_holes (h : pieces offset cs = .ok ps) : ∀ name ∈ holes ps, IsName name := by
  fun_induction pieces offset cs generalizing ps with
  | case1 =>
    cases h
    simp [holes]
  | case2 | case3 => cases h
  | case4 offset rest c name after read ih =>
    obtain ⟨qs, hq, rfl⟩ := map_eq_ok_iff.1 h
    rw [holes, List.forall_mem_cons]
    exact ⟨⟨List.cons_ne_nil c name, (closing?_eq_some_iff.1 read).2⟩, ih hq⟩
  | case5 offset c rest _ ih =>
    obtain ⟨qs, hq, rfl⟩ := map_eq_ok_iff.1 h
    rw [holes]
    exact ih hq

theorem offset_le_start {p : Placeholder} (h : p ∈ placeholders offset ps) : offset ≤ p.start := by
  induction ps generalizing offset with
  | nil => cases h
  | cons q ps ih =>
    cases q with
    | char c => exact Nat.le_of_add_right_le (ih h)
    | hole name =>
      rcases List.mem_cons.1 h with rfl | h
      · exact Nat.le_refl _
      · exact Nat.le_of_add_right_le (ih h)

/-- A template that begins with a placeholder. -/
theorem exists_hole_of_start {n : String} {stop : Nat} {found : List Placeholder}
    (h : placeholders offset ps = ⟨n, offset, stop⟩ :: found) :
    ∃ qs, ps = .hole n.toList :: qs ∧ stop = offset + size (Piece.hole n.toList).text := by
  rcases ps with _ | ⟨c | name, qs⟩
  · cases h
  · rw [placeholders] at h
    have later : offset + c.utf8Size ≤ offset := offset_le_start (h ▸ List.mem_cons_self)
    exact absurd later (Nat.not_le_of_gt (Nat.lt_add_of_pos_right c.utf8Size_pos))
  · simp only [placeholders, List.cons.injEq, Placeholder.mk.injEq] at h
    obtain ⟨⟨rfl, -, rfl⟩, -⟩ := h
    exact ⟨qs, by simp, by simp⟩

/-- A text that a scan finds to be one placeholder from its start to its end. -/
def IsWhole (s n : String) : Prop := scan s = .ok [⟨n, 0, s.utf8ByteSize⟩]

theorem isWhole_iff {s n : String} :
    IsWhole s n ↔ s.toList = (Piece.hole n.toList).text ∧ IsName n.toList := by
  constructor
  · intro h
    obtain ⟨ps, read, found⟩ := map_eq_ok_iff.1 h
    obtain ⟨qs, rfl, whole⟩ := exists_hole_of_start found
    have parts : (Piece.hole n.toList).text ++ text qs = s.toList := text_pieces read
    have nothing : text qs = [] := by
      rw [← size_eq_zero_iff]
      rw [← size_toList, ← parts, size_append] at whole
      omega
    refine ⟨by rw [← parts, nothing, List.append_nil], ?_⟩
    exact isName_of_mem_holes read _ List.mem_cons_self
  · rintro ⟨text, name⟩
    have read : pieces 0 ((Piece.hole n.toList).text ++ []) = _ := pieces_hole name
    rw [List.append_nil, pieces] at read
    rw [IsWhole, scan, text, read, ← size_toList, text]
    simp [Except.map, placeholders]

theorem soleName?_eq_some_iff {s n : String} :
    soleName? s = some n ↔ IsWhole (Text.trim s) n ∧ '\x7b' ∉ n.toList := by
  rw [isWhole_iff, Text.toList_trim, soleName?]
  constructor
  · intro h
    split at h
    · rename_i rest eq
      simp only at h
      split at h
      · rename_i good
        obtain ⟨last, nonempty, noOpening, noClosing⟩ := good
        cases h
        rw [String.toList_ofList, eq]
        refine ⟨⟨?_, nonempty, noClosing⟩, noOpening⟩
        simp [Piece.text, List.dropLast_append_getLast? _ last]
      · cases h
    · cases h
  · rintro ⟨⟨eq, name⟩, noOpening⟩
    simp [eq, Piece.text, name.nonempty, name.free, noOpening]

/-- A text stands for a variable when a scan finds it to be one placeholder whose name has no
opening brace. Scan and rules therefore agree on a text unless it is, without the blanks around it,
a placeholder with an opening brace in its name. -/
theorem recognizers_agree_iff (s : String) :
    (∀ n, soleName? s = some n ↔ IsWhole (Text.trim s) n ∧ '\x7b' ∉ n.toList) ∧
      ((∀ n, soleName? s = some n ↔ IsWhole (Text.trim s) n) ↔
        ∀ n : String, '\x7b' ∈ n.toList → '\x7d' ∉ n.toList →
          Text.trim s ≠ "$\x7b" ++ n ++ "\x7d") := by
  refine ⟨fun n => soleName?_eq_some_iff, ?_⟩
  have whole (n : String) (opening : '\x7b' ∈ n.toList) :
      IsWhole (Text.trim s) n ↔ Text.trim s = "$\x7b" ++ n ++ "\x7d" ∧ '\x7d' ∉ n.toList := by
    have marks : ("$\x7b" ++ n ++ "\x7d").toList = (Piece.hole n.toList).text := by
      simp [Piece.text]
    rw [isWhole_iff, ← marks, String.toList_inj]
    exact and_congr_right fun _ => ⟨IsName.free, fun free => ⟨List.ne_nil_of_mem opening, free⟩⟩
  constructor
  · intro agree n opening free eq
    have found := (agree n).2 ((whole n opening).2 ⟨eq, free⟩)
    exact (soleName?_eq_some_iff.1 found).2 opening
  · intro none n
    rw [soleName?_eq_some_iff]
    refine and_iff_left_of_imp fun h opening => ?_
    obtain ⟨eq, free⟩ := (whole n opening).1 h
    exact none n opening free eq

/-- The scan reads an opening brace as part of a name, and the rules see no variable. -/
theorem brace_read_by_scan_only :
    IsWhole (Text.trim "$\x7ba\x7bb\x7d") "a\x7bb" ∧ soleName? "$\x7ba\x7bb\x7d" = none := by
  have trimmed : Text.strip "$\x7ba\x7bb\x7d".toList = (Piece.hole "a\x7bb".toList).text := by
    decide
  constructor
  · rw [isWhole_iff, Text.toList_trim, trimmed]
    exact ⟨rfl, by decide, by decide⟩
  · decide

end DataAccess.Template
