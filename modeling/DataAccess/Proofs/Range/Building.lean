import DataAccess.Proofs.Range.Alternatives
import DataAccess.Proofs.Template.Scanning

/-!
# Building

The filter of a range by its texts alone. A scan of each text tells which names are looked up and
which of its characters give way to marks (`Replaces`). A name without a value makes the range fail,
the first one from the left if there are several, and else the texts become the groups of the filter
and the values its parameters (`build_by_leaves`).
-/

namespace DataAccess

namespace Template

/-- A text which starts at a byte offset, with a mark in the place of each of some placeholders that
stand in it one behind the other. -/
inductive Replaces : Nat → List Char → List Placeholder → List Char → Prop where
  | rest (offset cs) : Replaces offset cs [] cs
  | next {offset start stop before name after found out} (begins : start = offset + size before)
      (ends : stop = start + size (Piece.hole name).text) (later : Replaces stop after found out) :
      Replaces offset (before ++ ((Piece.hole name).text ++ after))
        (⟨String.ofList name, start, stop⟩ :: found) (before ++ '?' :: out)

theorem Replaces.cons {offset : Nat} {c : Char} {cs out : List Char} {found : List Placeholder}
    (h : Replaces (offset + c.utf8Size) cs found out) :
    Replaces offset (c :: cs) found (c :: out) := by
  cases h with
  | rest => exact .rest _ _
  | @next _ _ _ before _ _ _ _ begins ends later =>
    rw [← List.cons_append, ← List.cons_append]
    refine .next ?_ ends later
    rw [begins, size, Nat.add_assoc]

/-- The offsets of a scan are those of the text around the placeholders. -/
theorem replaces_pieces (offset : Nat) (ps : List Piece) :
    Replaces offset (text ps) (placeholders offset ps) (marked ps) := by
  induction ps generalizing offset with
  | nil => exact .rest _ _
  | cons p ps ih =>
    cases p with
    | char c => exact (ih _).cons
    | hole name =>
      change Replaces offset ([] ++ ((Piece.hole name).text ++ text ps)) _ ([] ++ '?' :: marked ps)
      exact .next rfl rfl (ih _)

theorem append_inj_of_size {cs ds cs' ds' : List Char} (eq : cs ++ ds = cs' ++ ds')
    (same : size cs = size cs') : cs = cs' ∧ ds = ds' := by
  induction cs generalizing cs' with
  | nil =>
    have none : cs' = [] := size_eq_zero_iff.mp same.symm
    subst none
    exact ⟨rfl, eq⟩
  | cons c cs ih =>
    cases cs' with
    | nil => exact absurd (size_eq_zero_iff.mp same) (List.cons_ne_nil c cs)
    | cons c' cs' =>
      obtain ⟨rfl, tails⟩ := List.cons.inj eq
      obtain ⟨rfl, rest⟩ := ih tails (Nat.add_left_cancel same)
      exact ⟨rfl, rest⟩

theorem Replaces.unique {offset : Nat} {cs out out' : List Char} {found : List Placeholder}
    (h : Replaces offset cs found out) (h' : Replaces offset cs found out') : out = out' := by
  induction h generalizing out' with
  | rest =>
    cases h'
    rfl
  | @next offset start stop before name after found out begins ends later ih =>
    generalize text : before ++ ((Piece.hole name).text ++ after) = cs at h'
    generalize list : (⟨String.ofList name, start, stop⟩ : Placeholder) :: found = ps at h'
    cases h' with
    | rest => cases list
    | next begins' ends' later' =>
      simp only [List.cons.injEq, Placeholder.mk.injEq] at list
      obtain ⟨⟨names, rfl, rfl⟩, rfl⟩ := list
      obtain rfl := String.ofList_injective names
      obtain ⟨rfl, behind⟩ := append_inj_of_size text (by omega)
      obtain rfl := List.append_cancel_left behind
      rw [ih later']

end Template

open Template

namespace RangeContext

/-- The value of a name, which must have one. -/
def require (c : RangeContext) (name : String) : Except RangeError Value :=
  match c.lookup name with
  | none => .error (.unknownPlaceholder name)
  | some v => .ok v

section
variable {c : RangeContext} {name : String}

theorem require_eq_ok_iff {v : Value} : c.require name = .ok v ↔ c.lookup name = some v := by
  rw [require]
  cases c.lookup name <;> simp

theorem require_eq_error_iff {e : RangeError} :
    c.require name = .error e ↔ c.lookup name = none ∧ e = .unknownPlaceholder name := by
  rw [require]
  cases c.lookup name <;> simp [eq_comm]

theorem mapM_require_eq_ok_iff {names : List String} {vs : List Value} :
    names.mapM c.require = .ok vs ↔ names.map c.lookup = vs.map some := by
  rw [mapM_eq_ok_iff, ← List.forall₂_eq_eq_eq, List.forall₂_map_left_iff,
    List.forall₂_map_right_iff]
  simp only [require_eq_ok_iff]

end

end RangeContext

variable {c : RangeContext}

theorem MarkedText.ofPieces_eq (ps : List Piece) :
    ofPieces c ps =
      (((holes ps).map String.ofList).mapM c.require).map fun vs => ⟨marked ps, vs⟩ := by
  induction ps with
  | nil => rfl
  | cons p ps ih =>
    cases p with
    | char ch =>
      rw [ofPieces, ih, holes]
      cases ((holes ps).map String.ofList).mapM c.require <;> rfl
    | hole name =>
      rw [ofPieces, ih, holes, List.map_cons, List.mapM_cons, RangeContext.require]
      cases c.lookup (String.ofList name) with
      | none => rfl
      | some v => cases ((holes ps).map String.ofList).mapM c.require <;> rfl

/-- The placeholders of a text, and the text with marks in their places. -/
structure Marking where
  found : List Placeholder
  text : String

namespace Marking

def names (m : Marking) : List String := m.found.map Placeholder.name

def group (m : Marking) : String := "(" ++ m.text ++ ")"

/-- A marking is that of a text if it has the placeholders that a scan finds. -/
structure Of (s : String) (m : Marking) : Prop where
  scan : Template.scan s = .ok m.found
  replaces : Replaces 0 s.toList m.found m.text.toList

theorem Of.unique {s : String} {m n : Marking} (hm : Of s m) (hn : Of s n) : m = n := by
  obtain ⟨found, text⟩ := m
  obtain ⟨found', text'⟩ := n
  obtain rfl : found = found' := Except.ok.inj (hm.scan.symm.trans hn.scan)
  obtain rfl : text = text' := String.toList_inj.mp (hm.replaces.unique hn.replaces)
  rfl

end Marking

namespace RowRange

def marking (s : String) : Marking where
  found := placeholders 0 (piecesOf s)
  text := String.ofList (markedText s)

theorem Accepted.marking_of {s : String} (h : Accepted s) : Marking.Of s (marking s) where
  scan := by
    rw [Template.scan, h.template]
    rfl
  replaces := by
    have replaces := replaces_pieces 0 (piecesOf s)
    rw [text_pieces h.template] at replaces
    simpa [marking, markedText] using replaces

theorem forall₂_marking_iff {texts : List String} (accepted : ∀ s ∈ texts, Accepted s)
    {ms : List Marking} : List.Forall₂ Marking.Of texts ms ↔ ms = texts.map marking := by
  induction texts generalizing ms with
  | nil => exact List.forall₂_nil_left_iff
  | cons s texts ih =>
    obtain ⟨here, rest⟩ := List.forall_mem_cons.mp accepted
    rw [List.forall₂_cons_left_iff, List.map_cons]
    constructor
    · rintro ⟨m, ms, hm, hms, rfl⟩
      rw [hm.unique here.marking_of, (ih rest).mp hms]
    · rintro rfl
      exact ⟨_, _, here.marking_of, (ih rest).mpr rfl, rfl⟩

theorem Accepted.build_eq {s : String} (h : Accepted s) :
    (text s).build c =
      ((marking s).names.mapM c.require).map fun vs => ⟨(marking s).group, vs⟩ := by
  rw [build, MarkedText.ofRange, h.template]
  dsimp only
  rw [MarkedText.ofPieces_eq, ← names_placeholders 0, ← markedText]
  change _ = ((placeholders 0 (piecesOf s)).map Placeholder.name |>.mapM c.require).map _
  cases ((placeholders 0 (piecesOf s)).map Placeholder.name).mapM c.require with
  | error e => rfl
  | ok vs =>
    have chars : String.ofList ('(' :: markedText s ++ [')']) = (marking s).group := by
      simp [Marking.group, marking, ← String.toList_inj]
    exact congrArg (fun sql => Except.ok (RowFilter.mk sql vs)) chars

/-- The filter of a range, or its fault, told by its texts. -/
theorem Parsed.build_eq {r : RowRange} (h : Parsed r) :
    r.build c =
      (((r.leaves.map marking).flatMap Marking.names).mapM c.require).map fun vs =>
        ⟨" OR ".intercalate ((r.leaves.map marking).map Marking.group), vs⟩ := by
  induction h with
  | parse h =>
    obtain ⟨rfl, accepted⟩ := parse_eq_ok_iff.mp h
    rw [accepted.build_eq, leaves, List.map_singleton, List.flatMap_singleton]
    rfl
  | @or l r _ _ ihl ihr =>
    have left : (l.leaves.map marking).map Marking.group ≠ [] := by simpa using leaves_ne_nil l
    have right : (r.leaves.map marking).map Marking.group ≠ [] := by simpa using leaves_ne_nil r
    rw [build_or, ihl, ihr, leaves, List.map_append, List.flatMap_append, List.mapM_append,
      List.map_append, String.intercalate_append_of_ne_nil left right]
    cases ((l.leaves.map marking).flatMap Marking.names).mapM c.require with
    | error e => rfl
    | ok vs =>
      cases ((r.leaves.map marking).flatMap Marking.names).mapM c.require with
      | error e => rfl
      | ok ws =>
        apply congrArg Except.ok
        simp [RowFilter.joined, String.intercalate_cons_cons]

section
variable {r : RowRange} (parsed : Parsed r)
include parsed

/-- The fault is that of the first name without a value. -/
theorem Parsed.first_missing {e : RangeError} (failed : r.build c = .error e) :
    ∃ before name after,
      (r.leaves.map marking).flatMap Marking.names = before ++ name :: after ∧
        (∀ n ∈ before, c.lookup n ≠ none) ∧ c.lookup name = none ∧
          e = .unknownPlaceholder name := by
  rw [parsed.build_eq, map_eq_error_iff, mapM_eq_error_iff] at failed
  obtain ⟨before, name, after, eq, found, fault⟩ := failed
  obtain ⟨missing, rfl⟩ := RangeContext.require_eq_error_iff.mp fault
  refine ⟨before, name, after, eq, ?_, missing, rfl⟩
  intro n hn none
  obtain ⟨v, hv⟩ := found n hn
  rw [RangeContext.require_eq_ok_iff, none] at hv
  cases hv

theorem Parsed.groups_and_values {f : RowFilter} (succeeded : r.build c = .ok f) :
    f.sql = " OR ".intercalate ((r.leaves.map marking).map Marking.group) ∧
      ((r.leaves.map marking).flatMap Marking.names).map c.lookup = f.params.map some := by
  rw [parsed.build_eq, map_eq_ok_iff] at succeeded
  obtain ⟨vs, found, rfl⟩ := succeeded
  exact ⟨rfl, RangeContext.mapM_require_eq_ok_iff.mp found⟩

theorem Parsed.build_fails_iff :
    (∃ e, r.build c = .error e) ↔
      ∃ name ∈ (r.leaves.map marking).flatMap Marking.names, c.lookup name = none := by
  constructor
  · rintro ⟨e, failed⟩
    obtain ⟨before, name, after, eq, -, missing, -⟩ := parsed.first_missing failed
    exact ⟨name, by simp [eq], missing⟩
  · rintro ⟨name, mem, missing⟩
    cases result : r.build c with
    | error e => exact ⟨e, rfl⟩
    | ok f =>
      have value : c.lookup name ∈ _ := List.mem_map_of_mem mem
      rw [(parsed.groups_and_values result).2] at value
      simp [missing] at value

end

/-- A range of accepted texts is built from the markings of these texts. It fails exactly when a
name in them has no value, with the first such name. Else the filter has their groups, and the
values of their names in order. Ranges with the same texts are built alike. -/
theorem build_by_leaves {r : RowRange} (parsed : Parsed r) (c : RangeContext) :
    ∃ ms : List Marking, (∀ ns, List.Forall₂ Marking.Of r.leaves ns ↔ ns = ms) ∧
      (let names := ms.flatMap Marking.names;
        ((∃ e, r.build c = .error e) ↔ ∃ name ∈ names, c.lookup name = none) ∧
        (∀ e, r.build c = .error e → ∃ before name after, names = before ++ name :: after ∧
          (∀ n ∈ before, c.lookup n ≠ none) ∧ c.lookup name = none ∧
            e = .unknownPlaceholder name) ∧
        ∀ f, r.build c = .ok f →
          f.sql = " OR ".intercalate (ms.map Marking.group) ∧
            names.map c.lookup = f.params.map some) ∧
      ∀ r' : RowRange, r'.leaves = r.leaves → r'.build c = r.build c := by
  refine ⟨r.leaves.map marking, fun ns => forall₂_marking_iff (parsed_iff.mp parsed), ?_, ?_⟩
  · refine ⟨parsed.build_fails_iff, ?_, ?_⟩
    · exact fun _ => parsed.first_missing
    · exact fun _ => parsed.groups_and_values
  · intro r' same
    rw [build_leaves r', same, ← build_leaves r]

/-- A request that gives a value to one name only. -/
def onlyX : RangeContext := ⟨none, .anonymous, {}, (∅ : Dictionary Value).insert "x" (.int 1)⟩

/-- However three texts are nested, the name that has no value is the same. -/
theorem build_by_leaves_regrouped :
    Parsed (.or (.text "a = ${x}") (.or (.text "b = ${y}") (.text "c = ${z}"))) ∧
      (RowRange.or (.text "a = ${x}") (.or (.text "b = ${y}") (.text "c = ${z}"))).build onlyX =
        .error (.unknownPlaceholder "y") ∧
      (RowRange.or (.or (.text "a = ${x}") (.text "b = ${y}")) (.text "c = ${z}")).build onlyX =
        .error (.unknownPlaceholder "y") := by
  have first : RowRange.parse "a = ${x}" = .ok (.text "a = ${x}") := by
    simp [RowRange.parse, Text.strip, Text.dropBlank, Text.isBlank, pieces, closing?, Except.map,
      escape?, escapeFrom?]
  have second : RowRange.parse "b = ${y}" = .ok (.text "b = ${y}") := by
    simp [RowRange.parse, Text.strip, Text.dropBlank, Text.isBlank, pieces, closing?, Except.map,
      escape?, escapeFrom?]
  have third : RowRange.parse "c = ${z}" = .ok (.text "c = ${z}") := by
    simp [RowRange.parse, Text.strip, Text.dropBlank, Text.isBlank, pieces, closing?, Except.map,
      escape?, escapeFrom?]
  have parsed := Parsed.or (.parse first) (.or (.parse second) (.parse third))
  have failed : (RowRange.or (.text "a = ${x}")
      (.or (.text "b = ${y}") (.text "c = ${z}"))).build onlyX =
        .error (.unknownPlaceholder "y") := by
    have unset : (∅ : Dictionary Value).get? "y" = none := rfl
    simp [RowRange.build, MarkedText.ofRange, MarkedText.ofPieces, pieces, closing?, Except.map,
      RangeContext.lookup, onlyX, unset, bind, Except.bind, pure, Except.pure, MarkedText.grouped]
  obtain ⟨ms, -, -, alike⟩ := build_by_leaves parsed onlyX
  exact ⟨parsed, failed, (alike _ (by rfl)).trans failed⟩

end RowRange

end DataAccess
