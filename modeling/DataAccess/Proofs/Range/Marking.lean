import DataAccess.Proofs.Success
import DataAccess.Proofs.Text.Trim
import DataAccess.Range.Filter

/-!
# Marking

A range made of accepted texts is one template, each text between parentheses and ` OR ` between
the alternatives. The filter of the range has one character for each piece of that template, so a
mark stands at the position of its placeholder (`Parsed.build_eq_ok_iff`).
-/

namespace DataAccess

namespace Template

/-- The character of a piece in a filter. -/
def Piece.mark : Piece → Char
  | char c => c
  | hole _ => '?'

def Piece.isHole : Piece → Bool
  | char _ => false
  | hole _ => true

def marked (ps : List Piece) : List Char := ps.map Piece.mark

@[simp] theorem marked_nil : marked [] = [] := rfl

@[simp] theorem marked_cons (p : Piece) (ps : List Piece) :
    marked (p :: ps) = p.mark :: marked ps := rfl

@[simp] theorem marked_append (ps qs : List Piece) : marked (ps ++ qs) = marked ps ++ marked qs :=
  List.map_append

@[simp] theorem marked_char (cs : List Char) : marked (cs.map .char) = cs := by
  simp [marked, Piece.mark, Function.comp_def]

@[simp] theorem holes_append (ps qs : List Piece) : holes (ps ++ qs) = holes ps ++ holes qs := by
  induction ps with
  | nil => rfl
  | cons p ps ih => cases p <;> simp [holes, ih]

@[simp] theorem holes_char (cs : List Char) : holes (cs.map .char) = [] := by
  induction cs with
  | nil => rfl
  | cons c cs ih => exact ih

/-- The pieces of a text that is a template. -/
def piecesOf (s : String) : List Piece :=
  match pieces 0 s.toList with
  | .ok ps => ps
  | .error _ => []

theorem names_placeholders (offset : Nat) (ps : List Piece) :
    (placeholders offset ps).map Placeholder.name = (holes ps).map String.ofList := by
  induction ps generalizing offset with
  | nil => rfl
  | cons p ps ih => cases p <;> simp [placeholders, holes, ih]

end Template

open Template

namespace RangeContext

/-- The value of a placeholder, looked up by the characters of its name. -/
def value? (c : RangeContext) (name : List Char) : Option Value := c.lookup (String.ofList name)

end RangeContext

namespace MarkedText

variable {c : RangeContext}

theorem ofPieces_char {ch : Char} {ps : List Piece} {t : MarkedText} :
    ofPieces c (.char ch :: ps) = .ok t ↔
      ∃ u, ofPieces c ps = .ok u ∧ t = ⟨ch :: u.chars, u.params⟩ := by
  simp only [ofPieces, bind_eq_ok_iff, pure_eq_ok_iff, eq_comm (a := t)]

theorem ofPieces_hole {name : List Char} {ps : List Piece} {t : MarkedText} :
    ofPieces c (.hole name :: ps) = .ok t ↔
      ∃ v u, c.value? name = some v ∧ ofPieces c ps = .ok u ∧
        t = ⟨'?' :: u.chars, v :: u.params⟩ := by
  simp only [ofPieces, RangeContext.value?]
  cases c.lookup (String.ofList name) with
  | none => simp
  | some v => simp only [bind_eq_ok_iff, pure_eq_ok_iff, eq_comm (a := t), Option.some.injEq,
      exists_and_left, ↓existsAndEq, true_and]

/-- A template is marked when all its placeholders have values. -/
theorem ofPieces_eq_ok_iff {ps : List Piece} {t : MarkedText} :
    ofPieces c ps = .ok t ↔ (holes ps).mapM c.value? = some t.params ∧ t.chars = marked ps := by
  obtain ⟨chars, params⟩ := t
  induction ps generalizing chars params with
  | nil => simp [ofPieces, holes, marked, eq_comm, and_comm]
  | cons p ps ih =>
    cases p with
    | char ch =>
      rw [ofPieces_char]
      constructor
      · rintro ⟨⟨us, vs⟩, hu, eq⟩
        cases eq
        obtain ⟨hv, rfl⟩ := (ih us vs).1 hu
        exact ⟨hv, rfl⟩
      · rintro ⟨hv, hc⟩
        exact ⟨⟨marked ps, params⟩, (ih _ _).2 ⟨hv, rfl⟩, congrArg (MarkedText.mk · params) hc⟩
    | hole name =>
      rw [ofPieces_hole, holes, List.mapM_cons]
      simp only [Option.bind_eq_bind, Option.bind_eq_some_iff, Option.pure_def, Option.some.injEq]
      constructor
      · rintro ⟨v, ⟨us, vs⟩, hv, hu, eq⟩
        cases eq
        obtain ⟨hvs, rfl⟩ := (ih us vs).1 hu
        exact ⟨⟨v, hv, vs, hvs, rfl⟩, rfl⟩
      · rintro ⟨⟨v, hv, vs, hvs, rfl⟩, hc⟩
        exact ⟨v, ⟨marked ps, vs⟩, hv, (ih _ _).2 ⟨hvs, rfl⟩,
          congrArg (MarkedText.mk · (v :: vs)) hc⟩

theorem ofPieces_grouped {ps : List Piece} {t : MarkedText} :
    (ofPieces c ps).map grouped = .ok t ↔ ofPieces c (.char '(' :: ps ++ [.char ')']) = .ok t := by
  rw [map_eq_ok_iff, ofPieces_eq_ok_iff]
  constructor
  · rintro ⟨u, hu, rfl⟩
    obtain ⟨hv, hc⟩ := ofPieces_eq_ok_iff.1 hu
    exact ⟨by simpa [holes, grouped] using hv, by simp [grouped, hc, Piece.mark]⟩
  · rintro ⟨hv, hc⟩
    refine ⟨⟨marked ps, t.params⟩, ofPieces_eq_ok_iff.2 ⟨by simpa [holes] using hv, rfl⟩, ?_⟩
    cases t
    simpa [grouped, Piece.mark, eq_comm] using hc

theorem ofPieces_or {ps qs : List Piece} {t : MarkedText} :
    (do let u ← ofPieces c ps; let v ← ofPieces c qs; return u.or v) = .ok t ↔
      ofPieces c (ps ++ " OR ".toList.map .char ++ qs) = .ok t := by
  simp only [bind_eq_ok_iff, pure_eq_ok_iff, ofPieces_eq_ok_iff, holes_append, holes_char,
    List.append_nil, marked_append, marked_char, List.mapM_append]
  constructor
  · rintro ⟨u, ⟨hu, hc⟩, v, ⟨hv, hd⟩, rfl⟩
    exact ⟨by simp [hu, hv, or], by simp [or, hc, hd]⟩
  · rintro ⟨hv, hc⟩
    simp only [Option.bind_eq_bind, Option.bind_eq_some_iff, Option.pure_def,
      Option.some.injEq] at hv
    obtain ⟨us, hus, vs, hvs, eq⟩ := hv
    refine ⟨⟨marked ps, us⟩, ⟨hus, rfl⟩, ⟨marked qs, vs⟩, ⟨hvs, rfl⟩, ?_⟩
    cases t
    simp_all [or]

end MarkedText

namespace RowRange

/-- A text with marks for its placeholders. -/
def markedText (s : String) : List Char := marked (piecesOf s)

/-- The template of a range as a whole. -/
def template : RowRange → List Piece
  | text s => .char '(' :: piecesOf s ++ [.char ')']
  | or l r => l.template ++ " OR ".toList.map .char ++ r.template

theorem holes_template (r : RowRange) :
    holes r.template = r.leaves.flatMap fun s => holes (piecesOf s) := by
  induction r with
  | text s => simp [template, leaves, holes]
  | or l r ihl ihr =>
    rw [template, holes_append, holes_append, holes_char, ihl, ihr, leaves, List.flatMap_append,
      List.append_nil]

/-- Ranges made of accepted texts. -/
inductive Parsed : RowRange → Prop where
  | parse {s : String} {r : RowRange} : RowRange.parse s = .ok r → Parsed r
  | or {l r : RowRange} : Parsed l → Parsed r → Parsed (or l r)

/-- A text that is accepted, without blanks around it. -/
structure Accepted (s : String) : Prop where
  trimmed : Text.trim s = s
  nonempty : s ≠ ""
  template : pieces 0 s.toList = .ok (piecesOf s)
  confined : escape? s.toList = none

theorem parse_eq_ok_iff {s : String} {r : RowRange} :
    parse s = .ok r ↔ r = .text (Text.trim s) ∧ Accepted (Text.trim s) := by
  simp only [parse, Text.trim]
  generalize eq : Text.strip s.toList = cs
  by_cases hnil : cs = []
  · have blank : ¬Accepted "" := fun h => h.nonempty rfl
    simp [hnil, blank]
  · rw [if_neg hnil]
    constructor
    · intro h
      split at h
      · cases h
      · cases h
      · rename_i ps hps he
        cases h
        refine ⟨rfl, ?_, ?_, ?_, ?_⟩
        · rw [← eq]
          exact Text.trim_trim s
        · simpa using hnil
        · simp [piecesOf, hps]
        · simpa using he
    · rintro ⟨rfl, -, -, template, confined⟩
      rw [String.toList_ofList] at template confined
      simp [template, confined]

theorem Accepted.parse {s : String} (h : Accepted s) : RowRange.parse s = .ok (.text s) :=
  parse_eq_ok_iff.2 ⟨by rw [h.trimmed], by rwa [h.trimmed]⟩

theorem parsed_iff {r : RowRange} : Parsed r ↔ ∀ s ∈ r.leaves, Accepted s := by
  constructor
  · intro h
    induction h with
    | parse h =>
      obtain ⟨rfl, accepted⟩ := parse_eq_ok_iff.1 h
      simpa [leaves] using accepted
    | or _ _ ihl ihr =>
      intro s hs
      exact (List.mem_append.1 hs).elim (ihl s) (ihr s)
  · intro h
    induction r with
    | text s => exact .parse (h s (List.mem_singleton_self s)).parse
    | or l r ihl ihr =>
      exact .or (ihl fun s hs => h s (List.mem_append_left _ hs))
        (ihr fun s hs => h s (List.mem_append_right _ hs))

theorem Parsed.ofRange {r : RowRange} (h : Parsed r) {c : RangeContext} {t : MarkedText} :
    MarkedText.ofRange c r = .ok t ↔ MarkedText.ofPieces c r.template = .ok t := by
  induction h generalizing t with
  | parse h =>
    obtain ⟨rfl, accepted⟩ := parse_eq_ok_iff.1 h
    rw [MarkedText.ofRange, accepted.template, template]
    exact MarkedText.ofPieces_grouped
  | or _ _ ihl ihr =>
    rw [template, ← MarkedText.ofPieces_or]
    simp only [MarkedText.ofRange, bind_eq_ok_iff, ihl, ihr]

/-- A range of accepted texts has a filter when all its placeholders have values. The filter has a
character for each piece of the template, and the values in the order of the placeholders. -/
theorem Parsed.build_eq_ok_iff {r : RowRange} (h : Parsed r) {c : RangeContext} {f : RowFilter} :
    r.build c = .ok f ↔
      (holes r.template).mapM c.value? = some f.params ∧
        f.sql = String.ofList (marked r.template) := by
  rw [build, map_eq_ok_iff]
  simp only [h.ofRange, MarkedText.ofPieces_eq_ok_iff]
  constructor
  · rintro ⟨t, ⟨hv, hc⟩, rfl⟩
    exact ⟨hv, by rw [hc]⟩
  · rintro ⟨hv, hs⟩
    refine ⟨⟨marked r.template, f.params⟩, ⟨hv, rfl⟩, ?_⟩
    cases f
    simpa [eq_comm] using hs

end RowRange

end DataAccess
