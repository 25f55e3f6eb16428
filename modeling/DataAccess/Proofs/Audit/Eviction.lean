import DataAccess.Proofs.Audit.Run

/-!
# Eviction

A trail is a finite map from keys to histories. Recording under a key that is not tracked evicts
idle histories until there is room. These may be looked through in another order each time, so
`MakesRoom` leaves the order open; it takes away the histories under the evicted keys and no others
(`MakesRoom.history?_eq`).
-/

namespace DataAccess.Audit.Trail

/-- The history under a key. -/
def history? (t : Trail) (key : String) : Option History := t.histories.find? (·.key = key)

section
variable (t : Trail) (key : String)

theorem records_eq : t.records key = ((t.history? key).map History.records).getD [] := by
  rw [records, history?]
  cases t.histories.find? (·.key = key) <;> rfl

theorem tracks_eq : t.tracks key = (t.history? key).isSome := by
  rw [Bool.eq_iff_iff, tracks, history?, List.any_eq_true, List.find?_isSome]

@[simp] theorem history?_empty : empty.history? key = none := rfl

@[simp] theorem history?_erase (k : String) :
    (t.erase k).history? key = if key = k then none else t.history? key := by
  rw [history?, erase, List.find?_filter]
  split
  · rename_i same
    apply List.find?_eq_none.mpr
    intro h _
    simp [same]
  · rename_i other
    unfold history?
    congr 1
    funext h
    by_cases eq : h.key = key <;> simp [eq, other]

theorem find?_replace (h : History) (hs : List History) :
    (replace h hs).find? (·.key = key) =
      if key = h.key then some h else hs.find? (·.key = key) := by
  induction hs with
  | nil => by_cases eq : h.key = key <;> simp [replace, eq, eq_comm]
  | cons g gs ih =>
    rw [replace]
    by_cases same : g.key = h.key
    · by_cases eq : h.key = key <;> simp_all [eq_comm]
    · by_cases eq : g.key = key <;> simp_all [eq_comm]

@[simp] theorem history?_append (n : Nat) (r : Record) :
    (append n t r).history? key =
      if key = subjectKey r.subject then
        some ⟨subjectKey r.subject, lastRecords n (t.records (subjectKey r.subject) ++ [r])⟩
      else t.history? key :=
  find?_replace _ _ _

theorem length_replace (h : History) (hs : List History) :
    (replace h hs).length = if hs.any (·.key = h.key) then hs.length else hs.length + 1 := by
  induction hs with
  | nil => rfl
  | cons g gs ih =>
    rw [replace]
    by_cases same : g.key = h.key
    · simp [same]
    · by_cases later : gs.any (·.key = h.key) <;> simp_all

theorem subjectCount_append (n : Nat) (r : Record) :
    (append n t r).subjectCount =
      if t.tracks (subjectKey r.subject) then t.subjectCount else t.subjectCount + 1 :=
  length_replace _ _

theorem subjectCount_erase_le : (t.erase key).subjectCount ≤ t.subjectCount :=
  List.length_filter_le _ _

end

theorem mem_of_idlest? {hs : List History} {h : History} (idle : idlest? hs = some h) :
    h ∈ hs := by
  induction hs with
  | nil => cases idle
  | cons g gs ih =>
    rw [idlest?] at idle
    split at idle
    · cases idle
      exact List.mem_cons_self
    · rename_i f found
      split at idle
      · cases idle
        exact List.mem_cons_self
      · cases idle
        exact List.mem_cons_of_mem _ (ih found)

theorem idlest?_eq_none_iff {hs : List History} : idlest? hs = none ↔ hs = [] := by
  cases hs with
  | nil => exact iff_of_true rfl rfl
  | cons h hs =>
    rw [idlest?]
    split
    · simp
    · split <;> simp

/-- Evicting histories until there is room for another. Each time an idlest one goes, of those that
are left in some order. -/
inductive MakesRoom (subjects : Nat) : Trail → List String → Trail → Prop
  | room {t} (enough : t.subjectCount < subjects ∨ t.histories = []) : MakesRoom subjects t [] t
  | evict {t u : Trail} {order : List History} {h keys} (full : subjects ≤ t.subjectCount)
      (any : order.Perm t.histories) (idlest : idlest? order = some h)
      (rest : MakesRoom subjects (t.erase h.key) keys u) : MakesRoom subjects t (h.key :: keys) u

section
variable {subjects : Nat} {t u : Trail} {keys : List String}

theorem MakesRoom.history?_eq (h : MakesRoom subjects t keys u) (key : String) :
    u.history? key = if key ∈ keys then none else t.history? key := by
  induction h with
  | room => rw [if_neg List.not_mem_nil]
  | @evict t u order h keys full any idlest rest ih =>
    rw [ih, history?_erase]
    by_cases same : key = h.key <;> by_cases later : key ∈ keys <;> simp [same, later]

theorem MakesRoom.subjectCount_lt (h : MakesRoom subjects t keys u) (pos : 0 < subjects) :
    u.subjectCount < subjects := by
  induction h with
  | @room t enough =>
    cases enough with
    | inl enough => exact enough
    | inr empty => rwa [subjectCount, empty]
  | evict full any idlest rest ih => exact ih

/-- As many attempts as there are histories are enough. -/
theorem makesRoom_makeRoom (subjects : Nat) {attempts : Nat} (enough : t.subjectCount ≤ attempts) :
    ∃ keys, MakesRoom subjects t keys (makeRoom subjects attempts t) := by
  induction attempts generalizing t with
  | zero =>
    have none : t.histories = [] := List.eq_nil_of_length_eq_zero (Nat.le_zero.mp enough)
    exact ⟨[], .room (.inr none)⟩
  | succ attempts ih =>
    rw [makeRoom]
    split
    · rename_i room
      exact ⟨[], .room (.inl room)⟩
    · rename_i full
      split
      · rename_i none
        exact ⟨[], .room (.inr (idlest?_eq_none_iff.mp none))⟩
      · rename_i h idlest
        have fewer : (t.erase h.key).subjectCount < t.subjectCount := by
          apply List.length_filter_lt_length_iff_exists.mpr
          exact ⟨h, mem_of_idlest? idlest, by simp⟩
        obtain ⟨keys, rest⟩ := ih (Nat.le_of_lt_succ (Nat.lt_of_lt_of_le fewer enough))
        exact ⟨h.key :: keys, .evict (Nat.le_of_not_lt full) (.refl _) idlest rest⟩

end

end DataAccess.Audit.Trail
