import DataAccess.Proofs.Value.Reading

/-!
# Generic reading

A document from the generic reader holds no fault, and its tables are in order of their keys. It is
read as the same value in two ways, by the reader of values and as its generic value, exactly when
the date-time key is the least key of no table in it (`readings_agree_iff`).
-/

namespace DataAccess

/-- The key of a field that comes before all other keys. -/
def Entries.IsLeast {α : Type} (es : Entries α) (k : String) : Prop :=
  k ∈ es.map Prod.fst ∧ ∀ e ∈ es, k ≤ e.1

theorem Entries.mem_of_mem_foldl_insert {α : Type} {ps : List (String × α)} {e : String × α} :
    ∀ {es : Entries α}, e ∈ ps.foldl (fun es p => es.insert p.1 p.2) es → e ∈ es ∨ e ∈ ps := by
  induction ps with
  | nil => exact .inl
  | cons p ps ih =>
    intro es h
    rcases ih h with h | h
    · rcases Entries.mem_insert h with rfl | h
      · exact .inr List.mem_cons_self
      · exact .inl h
    · exact .inr (List.mem_cons_of_mem _ h)

theorem Entries.mem_of_mem_ofList {α : Type} {ps : List (String × α)} {e : String × α}
    (h : e ∈ Entries.ofList ps) : e ∈ ps := by
  rcases Entries.mem_of_mem_foldl_insert h with h | h
  · cases h
  · exact h

theorem Entries.isLeast_iff {α : Type} {es : Entries α} (increasing : es.Increasing) {k : String} :
    es.IsLeast k ↔ (es.map Prod.fst).head? = some k := by
  cases es with
  | nil => simp [IsLeast]
  | cons e es =>
    have above : ∀ d ∈ es, e.1 < d.1 := (List.pairwise_cons.mp increasing).1
    rw [IsLeast, List.forall_mem_cons, List.map_cons, List.head?_cons, Option.some.injEq]
    constructor
    · rintro ⟨mem, least, -⟩
      rcases List.mem_cons.mp mem with rfl | mem
      · rfl
      · obtain ⟨d, hd, rfl⟩ := List.mem_map.mp mem
        exact absurd (above d hd) (String.not_lt.mpr least)
    · rintro rfl
      exact ⟨List.mem_cons_self, String.le_refl _, fun d hd =>
        String.not_lt.mp (String.lt_asymm (above d hd))⟩

namespace Document

/-- Documents without faults, whose tables are in order of their keys. -/
inductive Generic : Document → Prop
  | null : Generic .null
  | bool (b) : Generic (.bool b)
  | int (n) : Generic (.int n)
  | float (x) : Generic (.float x)
  | text (s) : Generic (.text s)
  | list {ds} (items : ∀ d ∈ ds, Generic d) : Generic (.list ds)
  | table {fs : Entries Document} (increasing : fs.Increasing) (values : ∀ f ∈ fs, Generic f.2) :
      Generic (.table fs)

/-- Documents with the date-time key as the least key of a table, at whatever depth. -/
inductive MimicsDateTime : Document → Prop
  | here {fs : Entries Document} (least : fs.IsLeast Value.dateTimeKey) : MimicsDateTime (.table fs)
  | item {d ds} : d ∈ ds → MimicsDateTime d → MimicsDateTime (.list ds)
  | field {f fs} : f ∈ fs → MimicsDateTime f.2 → MimicsDateTime (.table fs)

mutual

/-- What the generic reader makes of a document. -/
theorem generic_of_generic? {d g : Document} (h : d.generic? = some g) : g.Generic := by
  cases d with
  | null => cases h; exact .null
  | bool b => cases h; exact .bool b
  | int n => cases h; exact .int n
  | float x => cases h; exact .float x
  | text s => cases h; exact .text s
  | fault => cases h
  | list ds =>
    obtain ⟨gs, items, rfl⟩ := Option.map_eq_some_iff.mp h
    exact .list (generic_of_genericItems? items)
  | table fs =>
    obtain ⟨gs, fields, rfl⟩ := Option.map_eq_some_iff.mp h
    refine .table (Entries.increasing_ofList gs) ?_
    intro f hf
    exact generic_of_genericFields? fields f (Entries.mem_of_mem_ofList hf)

theorem generic_of_genericItems? {ds gs : List Document} (h : genericItems? ds = some gs) :
    ∀ g ∈ gs, g.Generic := by
  cases ds with
  | nil =>
    cases h
    exact List.forall_mem_nil _
  | cons d ds =>
    obtain ⟨g, here, h⟩ := Option.bind_eq_some_iff.mp h
    obtain ⟨gs, rest, h⟩ := Option.bind_eq_some_iff.mp h
    cases h
    exact List.forall_mem_cons.mpr ⟨generic_of_generic? here, generic_of_genericItems? rest⟩

theorem generic_of_genericFields? {fs gs : List (String × Document)}
    (h : genericFields? fs = some gs) : ∀ g ∈ gs, g.2.Generic := by
  cases fs with
  | nil =>
    cases h
    exact List.forall_mem_nil _
  | cons f fs =>
    obtain ⟨g, here, h⟩ := Option.bind_eq_some_iff.mp h
    obtain ⟨gs, rest, h⟩ := Option.bind_eq_some_iff.mp h
    cases h
    exact List.forall_mem_cons.mpr ⟨generic_of_generic? here, generic_of_genericFields? rest⟩

end

theorem mimicsDateTime_list_iff {ds : List Document} :
    (list ds).MimicsDateTime ↔ ∃ d ∈ ds, d.MimicsDateTime := by
  constructor
  · rintro (_ | ⟨mem, h⟩)
    exact ⟨_, mem, h⟩
  · rintro ⟨d, mem, h⟩
    exact .item mem h

theorem mimicsDateTime_table_iff {fs : Entries Document} :
    (table fs).MimicsDateTime ↔ fs.IsLeast Value.dateTimeKey ∨ ∃ f ∈ fs, f.2.MimicsDateTime := by
  constructor
  · rintro (least | _ | ⟨mem, h⟩)
    · exact .inl least
    · exact .inr ⟨_, mem, h⟩
  · rintro (least | ⟨f, mem, h⟩)
    · exact .here least
    · exact .field mem h

end Document

namespace Value

theorem ofGenericItems_eq_map (ds : List Document) : ofGenericItems ds = ds.map ofGeneric := by
  induction ds with
  | nil => rfl
  | cons d ds ih => rw [ofGenericItems, ih, List.map_cons]

theorem ofGenericFields_eq_map (fs : Entries Document) :
    ofGenericFields fs = fs.map fun f => (f.1, ofGeneric f.2) := by
  induction fs with
  | nil => rfl
  | cons f fs ih => rw [ofGenericFields, ih, List.map_cons]

/-- The two readings of a document, as a typed value and as a generic one, come to the same. -/
def ReadingsAgree (d : Document) : Prop := ofDocument? .json d = some (ofGeneric d)

theorem readingsAgree_list_iff {ds : List Document} :
    ReadingsAgree (.list ds) ↔ ∀ d ∈ ds, ReadingsAgree d := by
  have read : ofItems? .json (ds.map id) = some (ds.map ofGeneric) ↔ ∀ d ∈ ds, ReadingsAgree d :=
    ofItems?_map_iff
  rw [List.map_id, ← ofGenericItems_eq_map] at read
  simpa [ReadingsAgree, ofDocument?, ofGeneric] using read

theorem readingsAgree_table_iff {fs : Entries Document} (increasing : fs.Increasing) :
    ReadingsAgree (.table fs) ↔
      ¬fs.IsLeast dateTimeKey ∧ ∀ f ∈ fs, ReadingsAgree f.2 := by
  have read : ofFields? .json (fs.map fun f => (f.1, id f.2)) =
      some (fs.map fun f => (f.1, ofGeneric f.2)) ↔ ∀ f ∈ fs, ReadingsAgree f.2 :=
    ofFields?_map_iff
  simp only [id_eq, List.map_id', ← ofGenericFields_eq_map] at read
  have kept : Entries.ofList (ofGenericFields fs) = ofGenericFields fs := by
    apply Entries.ofList_eq_self
    rw [ofGenericFields_eq_map]
    exact List.pairwise_map.mpr increasing
  rw [ReadingsAgree, ofGeneric, kept, ofDocument?_table_iff increasing, read,
    Entries.isLeast_iff increasing]

/-- A generic document is read as its generic value exactly when the date-time key is the least key
of no table in it. -/
theorem readings_agree_iff {d : Document} (generic : d.Generic) :
    ofDocument? .json d = some (ofGeneric d) ↔ ¬d.MimicsDateTime := by
  change ReadingsAgree d ↔ _
  induction generic with
  | null | bool | text => exact iff_of_true rfl (by rintro ⟨⟩)
  | int n =>
    exact iff_of_true (congrArg some (ofNumber_eq_ofVisited _).symm) (by rintro ⟨⟩)
  | float x =>
    exact iff_of_true (congrArg some (ofNumber_eq_ofVisited _).symm) (by rintro ⟨⟩)
  | @list ds _ ih =>
    rw [readingsAgree_list_iff, forall₂_congr ih, Document.mimicsDateTime_list_iff]
    simp
  | @table fs increasing _ ih =>
    rw [readingsAgree_table_iff increasing, forall₂_congr ih, Document.mimicsDateTime_table_iff,
      not_or]
    simp

/-- The date-time key does no harm behind another key, nor a number beyond 64 bits signed. -/
theorem readings_agree_key_behind_another :
    let d : Document := .table [("!", .int 18446744073709551615), (dateTimeKey, .text "2024-01-01")]
    d.Generic ∧ ofDocument? .json d = some (ofGeneric d) := by
  intro d
  have generic : d.Generic := by
    let unsorted : Document :=
      .table [(dateTimeKey, .text "2024-01-01"), ("!", .int 18446744073709551615)]
    exact Document.generic_of_generic? (rfl : unsorted.generic? = some d)
  refine ⟨generic, (readings_agree_iff generic).mpr ?_⟩
  rw [Document.mimicsDateTime_table_iff]
  rintro (⟨-, least⟩ | ⟨f, mem, mimics⟩)
  · exact absurd (least _ List.mem_cons_self) (by decide)
  · rcases List.mem_pair.mp mem with rfl | rfl <;> cases mimics

end Value

end DataAccess
