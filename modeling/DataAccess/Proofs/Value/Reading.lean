import DataAccess.Proofs.Success
import DataAccess.Value.Document

/-!
# Reading values

Lists and tables are read item by item (`ofItems?_map_iff`, `ofFields?_map_iff`). A table with its
keys in order is a map unless the first of them is the date-time key (`ofDocument?_table_iff`).
-/

namespace DataAccess.Value

variable {δ : Dialect}

theorem ofItems?_eq_mapM (ds : List Document) : ofItems? δ ds = ds.mapM (ofDocument? δ) := by
  induction ds with
  | nil => rfl
  | cons d ds ih => rw [ofItems?, ih, List.mapM_cons]

theorem ofFields?_eq_mapM (fs : List (String × Document)) :
    ofFields? δ fs = fs.mapM fun f => (ofDocument? δ f.2).map fun v => (f.1, v) := by
  induction fs with
  | nil => rfl
  | cons f fs ih =>
    rw [ofFields?, ih, List.mapM_cons]
    cases ofDocument? δ f.2 <;> rfl

theorem toItems_eq_map (vs : List Value) : toItems vs = vs.map toDocument := by
  induction vs with
  | nil => rfl
  | cons v vs ih => rw [toItems, ih, List.map_cons]

theorem toFields_eq_map (es : Entries Value) :
    toFields es = es.map fun e => (e.1, e.2.toDocument) := by
  induction es with
  | nil => rfl
  | cons e es ih => rw [toFields, ih, List.map_cons]

/-- Documents made of some things are read as values made of them when each of them is. -/
theorem ofItems?_map_iff {α : Type} {d : α → Document} {v : α → Value} {as : List α} :
    ofItems? δ (as.map d) = some (as.map v) ↔ ∀ a ∈ as, ofDocument? δ (d a) = some (v a) := by
  rw [ofItems?_eq_mapM, mapM_eq_some_iff, List.forall₂_map_left_iff, List.forall₂_map_right_iff,
    List.forall₂_same]

theorem ofFields?_map_iff {α : Type} {d : α → Document} {v : α → Value} {as : Entries α} :
    ofFields? δ (as.map fun a => (a.1, d a.2)) = some (as.map fun a => (a.1, v a.2)) ↔
      ∀ a ∈ as, ofDocument? δ (d a.2) = some (v a.2) := by
  simp only [ofFields?_eq_mapM, mapM_eq_some_iff, List.forall₂_map_left_iff,
    List.forall₂_map_right_iff, List.forall₂_same, Option.map_eq_some_iff, Prod.mk.injEq, true_and,
    exists_eq_right]

theorem keys_of_ofFields? {fs : List (String × Document)} {es : Entries Value}
    (h : ofFields? δ fs = some es) : es.map Prod.fst = fs.map Prod.fst := by
  rw [ofFields?_eq_mapM, mapM_eq_some_iff] at h
  induction h with
  | nil => rfl
  | cons here _ ih =>
    obtain ⟨v, -, rfl⟩ := Option.map_eq_some_iff.mp here
    rw [List.map_cons, List.map_cons, ih]

theorem increasing_iff_keys {α : Type} {es : Entries α} :
    es.Increasing ↔ (es.map Prod.fst).Pairwise (· < ·) := List.pairwise_map.symm

/-- A table whose first key is not the date-time key is a map. -/
theorem ofDocument?_table {fs : List (String × Document)}
    (ordinary : (fs.map Prod.fst).head? ≠ some dateTimeKey) :
    ofDocument? δ (.table fs) = (ofFields? δ fs).map fun es => map (Entries.ofList es) := by
  cases fs with
  | nil => rfl
  | cons f fs =>
    obtain ⟨k, d⟩ := f
    have ne : k ≠ dateTimeKey := by simpa using ordinary
    rw [ofDocument?, if_neg ne, ofFields?]
    cases ofDocument? δ d with
    | none => rfl
    | some v => cases ofFields? δ fs <;> rfl

/-- A table whose first key is the date-time key is no map. -/
theorem ofDocument?_dateTime {d : Document} {fs : List (String × Document)} {es : Entries Value} :
    ofDocument? δ (.table ((dateTimeKey, d) :: fs)) ≠ some (map es) := by
  rw [ofDocument?, if_pos rfl]
  unfold ofDateTime?
  split
  · split
    · simp
    · simp
  · simp

theorem ofDocument?_table_iff {fs : Entries Document} (increasing : fs.Increasing)
    {es : Entries Value} :
    ofDocument? δ (.table fs) = some (map es) ↔
      (fs.map Prod.fst).head? ≠ some dateTimeKey ∧ ofFields? δ fs = some es := by
  by_cases first : (fs.map Prod.fst).head? = some dateTimeKey
  · refine iff_of_false ?_ fun h => h.1 first
    cases fs with
    | nil => simp at first
    | cons f fs =>
      obtain ⟨k, d⟩ := f
      cases (Option.some.inj first : k = dateTimeKey)
      exact ofDocument?_dateTime
  · -- The keys are in order already, so that making a map of the fields changes nothing.
    have kept {es' : Entries Value} (read : ofFields? δ fs = some es') :
        Entries.ofList es' = es' := by
      apply Entries.ofList_eq_self
      rwa [increasing_iff_keys, keys_of_ofFields? read, ← increasing_iff_keys]
    rw [ofDocument?_table first, Option.map_eq_some_iff]
    constructor
    · rintro ⟨es', read, eq⟩
      cases eq
      rw [kept read]
      exact ⟨first, read⟩
    · rintro ⟨-, read⟩
      exact ⟨es, read, congrArg map (kept read)⟩

end DataAccess.Value
