import DataAccess.Proofs.Range.Groups

/-!
# Alternatives

However a range is nested, its filter is that of its texts as alternatives, in their order, and it
has none where one of the texts has none (`build_leaves`).
-/

namespace DataAccess

/-- Filters as the alternatives of one. -/
def RowFilter.joined (fs : List RowFilter) : RowFilter :=
  ⟨" OR ".intercalate (fs.map sql), fs.flatMap params⟩

theorem RowFilter.joined_singleton (f : RowFilter) : joined [f] = f := by
  simp [joined]

theorem RowFilter.joined_append {fs gs : List RowFilter} (hf : fs ≠ []) (hg : gs ≠ []) :
    joined (fs ++ gs) = joined [joined fs, joined gs] := by
  have sqls : " OR ".intercalate (fs.map sql ++ gs.map sql) =
      " OR ".intercalate (fs.map sql) ++ " OR " ++ " OR ".intercalate (gs.map sql) := by
    apply String.intercalate_append_of_ne_nil
    · simpa using hf
    · simpa using hg
  simp [joined, sqls, String.intercalate_cons_cons]

/-- The filter with a marked text. -/
def MarkedText.filter (t : MarkedText) : RowFilter := ⟨String.ofList t.chars, t.params⟩

theorem MarkedText.filter_or (t u : MarkedText) :
    (t.or u).filter = RowFilter.joined [t.filter, u.filter] := by
  simp only [filter, or, RowFilter.joined, List.map_cons, List.map_nil, List.flatMap_cons,
    List.flatMap_nil, List.append_nil, String.intercalate_cons_cons, String.intercalate_singleton]
  rw [String.ofList_append, String.ofList_append, String.ofList_toList]

namespace RowRange

variable {c : RangeContext}

theorem build_or (l r : RowRange) :
    (or l r).build c = do
      let f ← l.build c
      let g ← r.build c
      return RowFilter.joined [f, g] := by
  unfold build
  rw [MarkedText.ofRange]
  cases MarkedText.ofRange c l with
  | error e => rfl
  | ok t =>
    cases MarkedText.ofRange c r with
    | error e => rfl
    | ok u => exact congrArg Except.ok (t.filter_or u)

/-- A range has the filter of its texts as alternatives, or fails as the first text that does. -/
theorem build_leaves (r : RowRange) :
    r.build c = (r.leaves.mapM fun s => (text s).build c).map RowFilter.joined := by
  induction r with
  | text s =>
    rw [leaves, List.mapM_cons, List.mapM_nil]
    cases (text s).build c with
    | error e => rfl
    | ok f => exact congrArg Except.ok (RowFilter.joined_singleton f).symm
  | or l r ihl ihr =>
    rw [build_or, leaves, List.mapM_append, ihl, ihr]
    cases hl : l.leaves.mapM fun s => (text s).build c with
    | error e => rfl
    | ok fs =>
      cases hr : r.leaves.mapM fun s => (text s).build c with
      | error e => rfl
      | ok gs =>
        have left : fs ≠ [] := by
          rintro rfl
          exact leaves_ne_nil l (List.forall₂_nil_right_iff.mp (mapM_eq_ok_iff.mp hl))
        have right : gs ≠ [] := by
          rintro rfl
          exact leaves_ne_nil r (List.forall₂_nil_right_iff.mp (mapM_eq_ok_iff.mp hr))
        exact congrArg Except.ok (RowFilter.joined_append left right).symm

theorem build_text_parenthesized {s : String} {f : RowFilter} (h : (text s).build c = .ok f) :
    ∃ condition, f.sql = "(" ++ condition ++ ")" := by
  rw [build, map_eq_ok_iff] at h
  obtain ⟨t, marked, rfl⟩ := h
  rw [MarkedText.ofRange] at marked
  split at marked
  · cases marked
  · obtain ⟨u, -, rfl⟩ := map_eq_ok_iff.mp marked
    refine ⟨String.ofList u.chars, ?_⟩
    rw [MarkedText.grouped, List.cons_append, ← List.singleton_append, String.ofList_append,
      String.ofList_append]
    rfl

theorem build_texts_parenthesized {texts : List String} {fs : List RowFilter}
    (h : List.Forall₂ (fun s f => (text s).build c = .ok f) texts fs) :
    ∀ f ∈ fs, ∃ condition, f.sql = "(" ++ condition ++ ")" := by
  induction h with
  | nil => simp
  | cons here _ ih => exact List.forall_mem_cons.mpr ⟨build_text_parenthesized here, ih⟩

end RowRange

end DataAccess
