/-!
# Entries

Lists of pairs in strictly increasing order of their keys. Keys are ordered by code point, which
is also the order of their UTF-8 bytes. Insertion keeps the order (`Increasing.insert`) and
changes one key (`get?_insert`).
-/

namespace DataAccess

abbrev Entries (α : Type u) := List (String × α)

namespace Entries

variable {α : Type u}

def Increasing (es : Entries α) : Prop := es.Pairwise (·.1 < ·.1)

instance (es : Entries α) : Decidable es.Increasing :=
  inferInstanceAs (Decidable (es.Pairwise (·.1 < ·.1)))

def get? (k : String) : Entries α → Option α
  | [] => none
  | e :: es => if e.1 = k then some e.2 else get? k es

/-- The last value of a key stands. -/
def insert (k : String) (v : α) : Entries α → Entries α
  | [] => [(k, v)]
  | e :: es =>
    if k < e.1 then (k, v) :: e :: es
    else if e.1 = k then (k, v) :: es
    else e :: insert k v es

theorem mem_insert {k : String} {v : α} {es : Entries α} {e : String × α}
    (h : e ∈ insert k v es) : e = (k, v) ∨ e ∈ es := by
  induction es with
  | nil => simpa [insert] using h
  | cons d ds ih =>
    simp only [insert] at h
    split at h
    · simpa using h
    · split at h
      · rcases List.mem_cons.1 h with h | h <;> simp [h]
      · rcases List.mem_cons.1 h with h | h
        · simp [h]
        · rcases ih h with h | h <;> simp [h]

theorem Increasing.insert {es : Entries α} (h : es.Increasing) (k : String) (v : α) :
    (es.insert k v).Increasing := by
  induction es with
  | nil => simp [Increasing, Entries.insert]
  | cons d ds ih =>
    obtain ⟨hd, hds⟩ := List.pairwise_cons.1 h
    simp only [Entries.insert]
    split
    · rename_i lt
      exact List.pairwise_cons.2 ⟨fun e he => (List.mem_cons.1 he).elim
        (fun q => q ▸ lt) (fun m => String.lt_trans lt (hd e m)), h⟩
    · split
      · rename_i eq
        exact List.pairwise_cons.2 ⟨fun e he => eq ▸ hd e he, hds⟩
      · rename_i nlt ne
        refine List.pairwise_cons.2 ⟨fun e he => ?_, ih hds⟩
        rcases mem_insert he with rfl | he
        · exact String.not_le.1 fun le => ne (String.le_antisymm (String.not_lt.1 nlt) le)
        · exact hd e he

theorem get?_insert_self (k : String) (v : α) (es : Entries α) :
    (es.insert k v).get? k = some v := by
  induction es with
  | nil => simp [insert, get?]
  | cons d ds ih =>
    simp only [insert]
    split
    · simp [get?]
    · split
      · simp [get?]
      · rename_i ne
        simp [get?, ne, ih]

theorem get?_insert_of_ne {k k' : String} (ne : k ≠ k') (v : α) (es : Entries α) :
    (es.insert k v).get? k' = es.get? k' := by
  induction es with
  | nil => simp [insert, get?, ne]
  | cons d ds ih =>
    simp only [insert]
    split
    · simp [get?, ne]
    · split
      · rename_i eq
        simp [get?, ne, eq]
      · simp [get?, ih]

theorem get?_insert (k k' : String) (v : α) (es : Entries α) :
    (es.insert k v).get? k' = if k = k' then some v else es.get? k' := by
  split
  · rename_i h
    exact h ▸ get?_insert_self k v es
  · rename_i h
    exact get?_insert_of_ne h v es

theorem get?_filter_ne (k k' : String) (es : Entries α) :
    Entries.get? k' (es.filter (·.1 ≠ k)) = if k = k' then none else es.get? k' := by
  induction es with
  | nil => simp [get?]
  | cons d ds ih =>
    by_cases eq : d.1 = k
    · simp only [ne_eq, eq, not_true_eq_false, decide_false, Bool.false_eq_true,
        not_false_eq_true, List.filter_cons_of_neg, ih, get?]
      split <;> rfl
    · simp only [ne_eq, eq, not_false_eq_true, decide_true, List.filter_cons_of_pos, get?, ih]
      split
      · rename_i eq'
        simp [← eq', Ne.symm eq]
      · rfl

theorem mem_of_get? {k : String} {v : α} {es : Entries α} (h : es.get? k = some v) :
    (k, v) ∈ es := by
  induction es with
  | nil => simp [get?] at h
  | cons d ds ih =>
    simp only [get?] at h
    split at h
    · rename_i eq
      cases h
      exact eq ▸ List.mem_cons_self
    · exact List.mem_cons_of_mem _ (ih h)

theorem Increasing.get?_of_mem {k : String} {v : α} {es : Entries α} (h : es.Increasing)
    (mem : (k, v) ∈ es) : es.get? k = some v := by
  induction es with
  | nil => cases mem
  | cons d ds ih =>
    obtain ⟨first, rest⟩ := List.pairwise_cons.1 h
    rw [get?]
    rcases List.mem_cons.1 mem with rfl | mem
    · exact if_pos rfl
    · have ne : d.1 ≠ k := fun eq => String.lt_irrefl k (eq ▸ first (k, v) mem)
      rw [if_neg ne, ih rest mem]

def ofList (ps : List (String × α)) : Entries α := ps.foldl (fun es p => es.insert p.1 p.2) []

theorem increasing_foldl_insert (ps : List (String × α)) {es : Entries α} (h : es.Increasing) :
    (ps.foldl (fun es p => es.insert p.1 p.2) es).Increasing := by
  induction ps generalizing es with
  | nil => exact h
  | cons p ps ih => exact ih (h.insert p.1 p.2)

theorem increasing_ofList (ps : List (String × α)) : (ofList ps).Increasing :=
  increasing_foldl_insert ps List.Pairwise.nil

theorem insert_eq_append {k : String} {v : α} {es : Entries α} (h : ∀ e ∈ es, e.1 < k) :
    es.insert k v = es ++ [(k, v)] := by
  induction es with
  | nil => rfl
  | cons d ds ih =>
    obtain ⟨hd, hds⟩ := List.forall_mem_cons.1 h
    have nlt : ¬k < d.1 := String.lt_asymm hd
    have ne : d.1 ≠ k := fun eq => String.lt_irrefl k (eq ▸ hd)
    simp [insert, nlt, ne, ih hds]

theorem foldl_insert_eq_append {es ps : Entries α} (h : Increasing (es ++ ps)) :
    ps.foldl (fun es p => Entries.insert p.1 p.2 es) es = es ++ ps := by
  induction ps generalizing es with
  | nil => simp
  | cons p ps ih =>
    have below : ∀ e ∈ es, e.1 < p.1 := fun e he =>
      (List.pairwise_append.1 h).2.2 e he p List.mem_cons_self
    rw [List.foldl_cons, insert_eq_append below, ih (by simpa using h), List.append_assoc,
      List.singleton_append]

/-- Entries in order are the ones that they list. -/
theorem ofList_eq_self {es : Entries α} (h : es.Increasing) : ofList es = es := by
  have h : Increasing ([] ++ es) := h
  exact foldl_insert_eq_append h

end Entries

end DataAccess
