import DataAccess.Proofs.Template.Scanning

/-!
# Tiling

A template with placeholders is cut into these and the gaps between them, in one way only
(`Cut.Sound.unique`). A scan finds the cut, with the byte offsets of the placeholders, or the first
opening mark that stands in the way of one (`scan_eq_iff`). Since any text is a cut up to such a
mark (`Cut.exists_cut`), it is enough to follow the scan along a cut (`Cut.Sound.pieces_text`).
-/

namespace DataAccess.Template

variable {cs gap name rest : List Char} {ps : List Piece} {offset : Nat}

/-- No placeholder opens in a text. -/
def Plain (cs : List Char) : Prop := ¬['$', '\x7b'] <:+: cs

theorem plain_nil : Plain [] := by simp [Plain]

theorem plain_cons_iff {c : Char} :
    Plain (c :: cs) ↔ ¬(c = '$' ∧ cs.head? = some '\x7b') ∧ Plain cs := by
  have first : ['$', '\x7b'] <+: c :: cs ↔ c = '$' ∧ cs.head? = some '\x7b' := by
    rw [List.cons_prefix_cons, eq_comm]
    cases cs <;> simp [eq_comm]
  rw [Plain, List.infix_cons_iff, first, not_or, Plain]

theorem pieces_char {c : Char} (plain : ¬(c = '$' ∧ cs.head? = some '\x7b')) :
    pieces offset (c :: cs) = (pieces (offset + c.utf8Size) cs).map (.char c :: ·) := by
  rw [pieces]
  rintro rest rfl rfl
  exact plain ⟨rfl, rfl⟩

/-- A text in which no placeholder opens is read character by character. -/
theorem pieces_plain (plain : Plain gap) (next : rest.head? ≠ some '\x7b') :
    pieces offset (gap ++ rest) = (pieces (offset + size gap) rest).map (gap.map .char ++ ·) := by
  induction gap generalizing offset with
  | nil =>
    simp only [List.nil_append, size, List.map_nil]
    cases pieces offset rest <;> rfl
  | cons c gap ih =>
    obtain ⟨apart, plain⟩ := plain_cons_iff.mp plain
    have apart : ¬(c = '$' ∧ (gap ++ rest).head? = some '\x7b') := by
      cases gap with
      | nil => exact fun h => next h.2
      | cons => exact apart
    rw [List.cons_append, pieces_char apart, ih plain, map_map, size, Nat.add_assoc]
    rfl

theorem pieces_empty :
    pieces offset ('$' :: '\x7b' :: '\x7d' :: rest) = .error (.empty offset) := by
  have closes : closing? ('\x7d' :: rest) = some ([], rest) := if_pos rfl
  rw [pieces_mark, closes]

theorem pieces_unterminated (unclosed : '\x7d' ∉ rest) :
    pieces offset ('$' :: '\x7b' :: rest) = .error (.unterminated offset) := by
  rw [pieces_mark, closing?_eq_none_iff.mpr unclosed]

/-- A text cut into its placeholders, each as its name with the gap before it, and the last gap. -/
structure Cut where
  parts : List (List Char × List Char)
  last : List Char

namespace Cut

def text (c : Cut) : List Char :=
  c.parts.flatMap (fun (gap, name) => gap ++ (Piece.hole name).text) ++ c.last

/-- No placeholder opens in a gap, and all have names. -/
structure Sound (c : Cut) : Prop where
  gaps : ∀ p ∈ c.parts, Plain p.1
  names : ∀ p ∈ c.parts, IsName p.2
  last : Plain c.last

/-- The placeholders of parts that start at a byte offset. -/
def placed (offset : Nat) : List (List Char × List Char) → List Placeholder
  | [] => []
  | (gap, name) :: parts =>
    let start := offset + size gap
    let stop := start + size (Piece.hole name).text
    ⟨String.ofList name, start, stop⟩ :: placed stop parts

def placeholders (c : Cut) : List Placeholder := placed 0 c.parts

/-- A cut as it is read from its text. -/
def toPieces (c : Cut) : List Piece :=
  c.parts.flatMap (fun (gap, name) => gap.map .char ++ [.hole name]) ++ c.last.map .char

variable {c d : Cut} {parts : List (List Char × List Char)} {last : List Char}

theorem text_cons :
    (⟨(gap, name) :: parts, last⟩ : Cut).text =
      gap ++ ((Piece.hole name).text ++ (⟨parts, last⟩ : Cut).text) := by
  simp [text]

theorem toPieces_cons :
    (⟨(gap, name) :: parts, last⟩ : Cut).toPieces =
      gap.map .char ++ .hole name :: (⟨parts, last⟩ : Cut).toPieces := by
  simp [toPieces]

theorem sound_nil : Sound ⟨[], []⟩ := ⟨nofun, nofun, plain_nil⟩

theorem sound_cons_iff :
    (⟨(gap, name) :: parts, last⟩ : Cut).Sound ↔
      Plain gap ∧ IsName name ∧ (⟨parts, last⟩ : Cut).Sound := by
  constructor
  · rintro ⟨gaps, names, plain⟩
    obtain ⟨gap, gaps⟩ := List.forall_mem_cons.mp gaps
    obtain ⟨name, names⟩ := List.forall_mem_cons.mp names
    exact ⟨gap, name, gaps, names, plain⟩
  · rintro ⟨gap, name, gaps, names, plain⟩
    exact ⟨List.forall_mem_cons.mpr ⟨gap, gaps⟩, List.forall_mem_cons.mpr ⟨name, names⟩, plain⟩

/-- Reading goes along a cut, whatever follows it, to where the cut ends. -/
theorem Sound.pieces_text (sound : c.Sound) (next : rest.head? ≠ some '\x7b') :
    pieces offset (c.text ++ rest) =
      (pieces (offset + size c.text) rest).map (c.toPieces ++ ·) := by
  obtain ⟨parts, last⟩ := c
  induction parts generalizing offset with
  | nil => exact pieces_plain sound.last next
  | cons part parts ih =>
    obtain ⟨gap, name⟩ := part
    obtain ⟨plain, isName, sound⟩ := sound_cons_iff.mp sound
    rw [text_cons, List.append_assoc, List.append_assoc, pieces_plain plain (by simp [Piece.text]),
      pieces_hole isName, ih sound, map_map, map_map, size_append, size_append, Nat.add_assoc,
      Nat.add_assoc, toPieces_cons]
    simp

theorem Sound.pieces_eq (sound : c.Sound) : pieces 0 c.text = .ok c.toPieces := by
  have read : pieces 0 (c.text ++ []) = (pieces (0 + size c.text) []).map (c.toPieces ++ ·) :=
    sound.pieces_text nofun
  rwa [List.append_nil, pieces, Except.map, List.append_nil] at read

/-- The cut of a text with one more character in front, which belongs to a gap. -/
def prepend (ch : Char) : Cut → Cut
  | ⟨[], last⟩ => ⟨[], ch :: last⟩
  | ⟨(gap, name) :: parts, last⟩ => ⟨(ch :: gap, name) :: parts, last⟩

theorem text_prepend (ch : Char) (c : Cut) : (c.prepend ch).text = ch :: c.text := by
  rcases c with ⟨_ | ⟨⟨gap, name⟩, parts⟩, last⟩
  · rfl
  · simp [prepend, text_cons]

theorem Sound.prepend (sound : c.Sound) {ch : Char}
    (plain : ¬(ch = '$' ∧ c.text.head? = some '\x7b')) : (c.prepend ch).Sound := by
  rcases c with ⟨_ | ⟨⟨gap, name⟩, parts⟩, last⟩
  · exact ⟨sound.gaps, sound.names, plain_cons_iff.mpr ⟨plain, sound.last⟩⟩
  · obtain ⟨gapPlain, isName, rest⟩ := sound_cons_iff.mp sound
    refine sound_cons_iff.mpr ⟨plain_cons_iff.mpr ⟨?_, gapPlain⟩, isName, rest⟩
    cases gap with
    | nil => simp
    | cons => exact plain

/-- Pieces, put together to gaps and placeholders. -/
def ofPieces : List Piece → Cut
  | [] => ⟨[], []⟩
  | .char ch :: ps => (ofPieces ps).prepend ch
  | .hole name :: ps => ⟨([], name) :: (ofPieces ps).parts, (ofPieces ps).last⟩

theorem ofPieces_gap (gap name : List Char) (ps : List Piece) :
    ofPieces (gap.map .char ++ .hole name :: ps) =
      ⟨(gap, name) :: (ofPieces ps).parts, (ofPieces ps).last⟩ := by
  induction gap with
  | nil => rfl
  | cons ch gap ih =>
    rw [List.map_cons, List.cons_append, ofPieces, ih]
    rfl

theorem ofPieces_last (last : List Char) : ofPieces (last.map .char) = ⟨[], last⟩ := by
  induction last with
  | nil => rfl
  | cons ch last ih =>
    rw [List.map_cons, ofPieces, ih]
    rfl

theorem ofPieces_toPieces (c : Cut) : ofPieces c.toPieces = c := by
  obtain ⟨parts, last⟩ := c
  induction parts with
  | nil => exact ofPieces_last last
  | cons part parts ih =>
    obtain ⟨gap, name⟩ := part
    rw [toPieces_cons, ofPieces_gap, ih]

/-- A text is cut at its placeholders in one way only. -/
theorem Sound.unique (hc : c.Sound) (hd : d.Sound) (same : c.text = d.text) : c = d := by
  have read : c.toPieces = d.toPieces := by
    apply Except.ok.inj (ε := Fault)
    rw [← hc.pieces_eq, same, hd.pieces_eq]
  rw [← c.ofPieces_toPieces, read, d.ofPieces_toPieces]

/-- What may follow a cut: nothing, or an opening mark that begins no placeholder. -/
inductive Ending : List Char → Prop where
  | finished : Ending []
  | empty (after : List Char) : Ending ('$' :: '\x7b' :: '\x7d' :: after)
  | unterminated {after : List Char} (unclosed : '\x7d' ∉ after) : Ending ('$' :: '\x7b' :: after)

theorem exists_cut (offset : Nat) (cs : List Char) :
    ∃ c rest, Sound c ∧ Ending rest ∧ cs = c.text ++ rest := by
  -- The cases are those of reading from any offset, although none of this depends on it.
  fun_induction pieces offset cs with
  | case1 => exact ⟨_, [], sound_nil, .finished, rfl⟩
  | case2 offset rest closes =>
    exact ⟨_, _, sound_nil, .unterminated (closing?_eq_none_iff.mp closes), rfl⟩
  | case3 offset rest after closes =>
    obtain rfl := eq_of_closing? closes
    exact ⟨_, _, sound_nil, .empty after, rfl⟩
  | case4 offset rest ch name after closes ih =>
    obtain ⟨rfl, free⟩ := closing?_eq_some_iff.mp closes
    obtain ⟨c, rest, sound, ending, rfl⟩ := ih
    refine ⟨⟨([], ch :: name) :: c.parts, c.last⟩, rest, ?_, ending, ?_⟩
    · exact sound_cons_iff.mpr ⟨plain_nil, ⟨List.cons_ne_nil _ _, free⟩, sound⟩
    · simp [text_cons, Piece.text]
  | case5 offset ch rest other ih =>
    obtain ⟨c, rest, sound, ending, rfl⟩ := ih
    refine ⟨c.prepend ch, rest, sound.prepend ?_, ending, by rw [text_prepend]; rfl⟩
    rintro ⟨rfl, mark⟩
    obtain ⟨tail, eq⟩ := List.head?_eq_some_iff.mp mark
    exact other (tail ++ rest) rfl (by rw [eq, List.cons_append])

end Cut

theorem placeholders_gap (gap : List Char) (ps : List Piece) :
    placeholders offset (gap.map .char ++ ps) = placeholders (offset + size gap) ps := by
  induction gap generalizing offset with
  | nil => rfl
  | cons c gap ih => rw [List.map_cons, List.cons_append, placeholders, ih, size, Nat.add_assoc]

theorem placeholders_toPieces (c : Cut) :
    placeholders offset c.toPieces = Cut.placed offset c.parts := by
  obtain ⟨parts, last⟩ := c
  induction parts generalizing offset with
  | nil =>
    have none : placeholders offset (last.map .char ++ []) = [] := placeholders_gap last []
    rwa [List.append_nil] at none
  | cons part parts ih =>
    obtain ⟨gap, name⟩ := part
    rw [Cut.toPieces_cons, placeholders_gap, placeholders, ih]
    rfl

/-- A placeholder that is found stands behind some pieces of the template. -/
theorem exists_pieces_of_mem {p : Placeholder} (h : p ∈ placeholders offset ps) :
    ∃ qs name rs, ps = qs ++ .hole name :: rs ∧
      p = ⟨String.ofList name, offset + size (text qs),
        offset + size (text qs) + size (Piece.hole name).text⟩ := by
  induction ps generalizing offset with
  | nil => cases h
  | cons q ps ih =>
    cases q with
    | char c =>
      obtain ⟨qs, name, rs, rfl, rfl⟩ := ih h
      refine ⟨.char c :: qs, name, rs, rfl, ?_⟩
      simp [text, Piece.text, size, Nat.add_assoc]
    | hole first =>
      rcases List.mem_cons.mp h with rfl | h
      · exact ⟨[], first, ps, rfl, rfl⟩
      · obtain ⟨qs, name, rs, rfl, rfl⟩ := ih h
        refine ⟨.hole first :: qs, name, rs, rfl, ?_⟩
        simp [text, Nat.add_assoc]

theorem pairwise_placeholders (offset : Nat) (ps : List Piece) :
    (placeholders offset ps).Pairwise fun p q => p.stop ≤ q.start := by
  induction ps generalizing offset with
  | nil => exact .nil
  | cons q ps ih =>
    cases q with
    | char c => exact ih _
    | hole name => exact List.pairwise_cons.mpr ⟨fun p hp => offset_le_start hp, ih _⟩

/-- A placeholder fills the bytes of a text between its offsets, and these part no character. -/
structure Placeholder.StandsIn (p : Placeholder) (s : String) : Prop where
  start_lt_stop : p.start < p.stop
  start_isValid : (String.Pos.Raw.mk p.start).IsValid s
  stop_isValid : (String.Pos.Raw.mk p.stop).IsValid s
  bytes : s.toUTF8.extract p.start p.stop = ("$\x7b" ++ p.name ++ "\x7d").toUTF8

theorem standsIn_append (before name after : List Char) :
    Placeholder.StandsIn
      ⟨String.ofList name, size before, size before + size (Piece.hole name).text⟩
      (String.ofList (before ++ (Piece.hole name).text ++ after)) := by
  have marks : String.ofList (Piece.hole name).text = "$\x7b" ++ String.ofList name ++ "\x7d" := by
    simp [Piece.text, ← String.toList_inj]
  have nonempty : size (Piece.hole name).text ≠ 0 := by simp [size_eq_zero_iff, Piece.text]
  have lt := Nat.lt_add_of_pos_right (n := size before) (Nat.pos_of_ne_zero nonempty)
  rw [String.ofList_append, String.ofList_append]
  refine ⟨lt, ?_, ?_, ?_⟩ <;> dsimp only
  · rw [size_eq_utf8ByteSize]
    exact String.Pos.Raw.isValid_iff_exists_append.mpr ⟨_, _, String.append_assoc .., rfl⟩
  · rw [← size_append, size_eq_utf8ByteSize, ← String.ofList_append]
    exact String.Pos.Raw.isValid_iff_exists_append.mpr ⟨_, _, rfl, rfl⟩
  · rw [← marks, size_eq_utf8ByteSize, size_eq_utf8ByteSize]
    simp only [String.toUTF8_eq_toByteArray, String.toByteArray_append, ← String.size_toByteArray]
    rw [ByteArray.extract_append, ByteArray.extract_append_eq_right rfl rfl]
    simp

theorem standsIn_of_scan {s : String} {found : List Placeholder} (h : scan s = .ok found) :
    ∀ p ∈ found, p.StandsIn s := by
  intro p hp
  obtain ⟨ps, read, rfl⟩ := map_eq_ok_iff.mp h
  obtain ⟨qs, name, rs, rfl, rfl⟩ := exists_pieces_of_mem hp
  have whole : s = String.ofList (text qs ++ (Piece.hole name).text ++ text rs) := by
    rw [← String.toList_inj, ← text_pieces read, String.toList_ofList]
    simp [text]
  rw [whole, Nat.zero_add]
  exact standsIn_append _ _ _

/-- What a scan has to give for a text: its placeholders if it is cut at them, and else the offset
of the first opening mark that begins none. -/
inductive Tiled (s : String) : Except Fault (List Placeholder) → Prop where
  | whole {c : Cut} (sound : c.Sound) (eq : s.toList = c.text) : Tiled s (.ok c.placeholders)
  | empty {c : Cut} {after : List Char} (sound : c.Sound)
      (eq : s.toList = c.text ++ '$' :: '\x7b' :: '\x7d' :: after) :
      Tiled s (.error (.empty (size c.text)))
  | unterminated {c : Cut} {after : List Char} (sound : c.Sound) (unclosed : '\x7d' ∉ after)
      (eq : s.toList = c.text ++ '$' :: '\x7b' :: after) :
      Tiled s (.error (.unterminated (size c.text)))

section
variable {s : String} {r : Except Fault (List Placeholder)}

theorem Tiled.scan_eq (tiled : Tiled s r) : scan s = r := by
  cases tiled with
  | whole sound eq =>
    rw [scan, eq, sound.pieces_eq, Except.map, placeholders_toPieces]
    rfl
  | empty sound eq =>
    rw [scan, eq, sound.pieces_text (by simp), pieces_empty, Nat.zero_add]
    rfl
  | unterminated sound unclosed eq =>
    rw [scan, eq, sound.pieces_text (by simp), pieces_unterminated unclosed, Nat.zero_add]
    rfl

theorem exists_tiled (s : String) : ∃ r, Tiled s r := by
  obtain ⟨c, rest, sound, ending, eq⟩ := Cut.exists_cut 0 s.toList
  cases ending with
  | finished => exact ⟨_, .whole sound (by rw [eq, List.append_nil])⟩
  | empty after => exact ⟨_, .empty sound eq⟩
  | unterminated unclosed => exact ⟨_, .unterminated sound unclosed eq⟩

theorem scan_eq_iff : scan s = r ↔ Tiled s r := by
  constructor
  · rintro rfl
    obtain ⟨r, tiled⟩ := exists_tiled s
    rwa [tiled.scan_eq]
  · exact Tiled.scan_eq

end

/-- A scan gives the placeholders of the only cut of a text, at offsets between whole characters and
one behind the other. Where there is no cut it gives the first mark in its way. -/
theorem scan_tiles (s : String) :
    (∀ r, scan s = r ↔ Tiled s r) ∧
      (∀ c d : Cut, c.Sound → d.Sound → s.toList = c.text → s.toList = d.text → c = d) ∧
      ∀ found, scan s = .ok found →
        (∀ p ∈ found, p.StandsIn s) ∧ found.Pairwise fun p q => p.stop ≤ q.start := by
  refine ⟨fun r => scan_eq_iff, ?_, ?_⟩
  · intro c d hc hd eqc eqd
    exact hc.unique hd (eqc.symm.trans eqd)
  · intro found h
    refine ⟨standsIn_of_scan h, ?_⟩
    obtain ⟨ps, -, rfl⟩ := map_eq_ok_iff.mp h
    exact pairwise_placeholders 0 ps

end DataAccess.Template
