import DataAccess.Proofs.Value.Reading

/-!
# Storage

Values without floats, constants and temporals are written as documents that tell them apart. Such
a value is read back as it was, unless the first key of a map in it is the date-time key: that map
is taken for a temporal value or refused (`readsBack_iff`).
-/

namespace DataAccess.Value

/-- Values made of what JSON has. -/
inductive JsonShaped : Value → Prop
  | null : JsonShaped .null
  | bool (b) : JsonShaped (.bool b)
  | int (n) : JsonShaped (.int n)
  | text (s) : JsonShaped (.text s)
  | array {vs} (items : ∀ v ∈ vs, JsonShaped v) : JsonShaped (.array vs)
  | map {es} (increasing : Entries.Increasing es) (values : ∀ e ∈ es, JsonShaped e.2) :
      JsonShaped (.map es)

/-- Values that have the date-time key as the first key of a map, at whatever depth. -/
inductive MimicsDateTime : Value → Prop
  | here {v es} : MimicsDateTime (.map ((dateTimeKey, v) :: es))
  | item {v vs} : v ∈ vs → MimicsDateTime v → MimicsDateTime (.array vs)
  | entry {e es} : e ∈ es → MimicsDateTime e.2 → MimicsDateTime (.map es)

/-- A value that is read back from its document as it was. -/
def ReadsBack (v : Value) : Prop := ofDocument? .json v.toDocument = some v

theorem ofInt_toInt (n : Int64) : ofInt n.toInt = int n := by
  have low := n.le_toInt
  have high := n.toInt_lt
  rw [ofInt, Document.Number.ofInt]
  split
  · rw [if_pos (by omega), ofVisited, Int64.ofInt_toInt]
  · rename_i positive
    have nonneg : 0 ≤ n.toInt := Int.not_lt.mp positive
    have size : (UInt64.ofNat n.toInt.toNat).toNat = n.toInt.toNat := by
      apply UInt64.toNat_ofNat_of_lt'
      unfold UInt64.size
      omega
    have small : fits (n.toInt.toNat : Nat) = true := by
      simp only [fits, Bool.and_eq_true, decide_eq_true_eq]
      omega
    rw [if_pos (by unfold UInt64.size; omega), ofVisited, size, if_pos small,
      ← Int64.ofInt_eq_ofNat, Int.toNat_of_nonneg nonneg, Int64.ofInt_toInt]

section
variable {δ : Dialect}

theorem ofItems?_toItems_iff {vs : List Value} :
    ofItems? δ (toItems vs) = some vs ↔ ∀ v ∈ vs, ofDocument? δ v.toDocument = some v := by
  have read : ofItems? δ (vs.map toDocument) = some (vs.map id) ↔ _ := ofItems?_map_iff
  rwa [← toItems_eq_map, List.map_id] at read

theorem ofFields?_toFields_iff {es : Entries Value} :
    ofFields? δ (toFields es) = some es ↔
      ∀ e ∈ es, ofDocument? δ e.2.toDocument = some e.2 := by
  have read : ofFields? δ (es.map fun e => (e.1, e.2.toDocument)) =
      some (es.map fun e => (e.1, id e.2)) ↔ _ := ofFields?_map_iff
  simpa only [← toFields_eq_map, id_eq, List.map_id'] using read

theorem keys_toFields (es : Entries Value) : (toFields es).map Prod.fst = es.map Prod.fst := by
  rw [toFields_eq_map, List.map_map]
  rfl

theorem ofDocument?_map_iff {es : Entries Value} (increasing : es.Increasing) :
    ofDocument? δ (map es).toDocument = some (map es) ↔
      (es.map Prod.fst).head? ≠ some dateTimeKey ∧
        ∀ e ∈ es, ofDocument? δ e.2.toDocument = some e.2 := by
  rw [increasing_iff_keys, ← keys_toFields, ← increasing_iff_keys] at increasing
  rw [toDocument, ofDocument?_table_iff increasing, keys_toFields, ofFields?_toFields_iff]

end

theorem mimicsDateTime_array_iff {vs : List Value} :
    (array vs).MimicsDateTime ↔ ∃ v ∈ vs, v.MimicsDateTime := by
  constructor
  · rintro (_ | ⟨mem, h⟩)
    exact ⟨_, mem, h⟩
  · rintro ⟨v, mem, h⟩
    exact .item mem h

theorem mimicsDateTime_map_iff {es : Entries Value} :
    (map es).MimicsDateTime ↔
      (es.map Prod.fst).head? = some dateTimeKey ∨ ∃ e ∈ es, e.2.MimicsDateTime := by
  constructor
  · rintro (_ | _ | ⟨mem, h⟩)
    · exact .inl rfl
    · exact .inr ⟨_, mem, h⟩
  · rintro (first | ⟨e, mem, h⟩)
    · cases es with
      | nil => simp at first
      | cons e es =>
        obtain ⟨k, v⟩ := e
        cases (Option.some.inj first : k = dateTimeKey)
        exact .here
    · exact .entry mem h

/-- A value made of what JSON has is read back as it was exactly when no map in it begins with the
date-time key. -/
theorem readsBack_iff {v : Value} (shaped : v.JsonShaped) : v.ReadsBack ↔ ¬v.MimicsDateTime := by
  induction shaped with
  | null => exact iff_of_true rfl (by rintro ⟨⟩)
  | bool b => exact iff_of_true rfl (by rintro ⟨⟩)
  | int n =>
    refine iff_of_true ?_ (by rintro ⟨⟩)
    rw [ReadsBack, toDocument, ofDocument?, ofInt_toInt]
  | text s => exact iff_of_true rfl (by rintro ⟨⟩)
  | @array vs _ ih =>
    have read : (array vs).ReadsBack ↔ ∀ v ∈ vs, v.ReadsBack := by
      simp only [ReadsBack, toDocument, ofDocument?, Option.map_eq_some_iff, array.injEq,
        exists_eq_right]
      exact ofItems?_toItems_iff
    rw [read, forall₂_congr ih, mimicsDateTime_array_iff]
    simp
  | @map es increasing _ ih =>
    have read : (map es).ReadsBack ↔ _ := ofDocument?_map_iff increasing
    have values : (∀ e ∈ es, e.2.ReadsBack) ↔ ¬∃ e ∈ es, e.2.MimicsDateTime := by
      rw [forall₂_congr ih]
      simp
    rw [read, mimicsDateTime_map_iff, not_or]
    exact and_congr_right fun _ => values

/-- The date-time key does no harm behind another key. -/
theorem readsBack_key_behind_another :
    JsonShaped (.map [("!", .null), (dateTimeKey, .text "2024-01-01")]) ∧
      ReadsBack (.map [("!", .null), (dateTimeKey, .text "2024-01-01")]) := by
  have shaped : JsonShaped (.map [("!", .null), (dateTimeKey, .text "2024-01-01")]) :=
    .map (by decide) (by simp [JsonShaped.null, JsonShaped.text])
  refine ⟨shaped, (readsBack_iff shaped).mpr ?_⟩
  rw [mimicsDateTime_map_iff]
  rintro (first | ⟨e, mem, mimics⟩)
  · exact absurd first (by decide)
  · simp only [List.mem_cons, List.mem_nil_iff, or_false] at mem
    rcases mem with rfl | rfl <;> cases mimics

/-- A map with the date-time key alone comes back as a date. -/
theorem date_read_for_map :
    JsonShaped (.map [(dateTimeKey, .text "2024-01-01")]) ∧
      ofDocument? .json (map [(dateTimeKey, .text "2024-01-01")]).toDocument =
        some (.temporal (.date ⟨2024, 1, 1, by decide⟩)) := by
  refine ⟨.map (by decide) (by simp [JsonShaped.text]), ?_⟩
  have read : Temporal.parse? "2024-01-01" = some (.date ⟨2024, 1, 1, by decide⟩) := by decide
  exact congrArg (Option.map temporal) read

end DataAccess.Value
