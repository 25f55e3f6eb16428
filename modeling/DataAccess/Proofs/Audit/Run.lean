import DataAccess.Audit.Trail
import Mathlib.Data.List.Induction
import Mathlib.Data.List.Nodup

/-!
# Runs of a trail

A trail is filled by recording decisions and clearing subjects. Its records are filed under keys,
and all of them are shown by time. Where each is filed under the key of its subject, being held
under a key is being held with a subject of that key (`Filed.files_iff`).
-/

namespace DataAccess.Audit

/-- What is done with a trail. Users of one trail may set different limits. -/
inductive Command where
  | record (limits : Limits) (r : Record)
  | clear (subject : Option String)

namespace Trail

def perform (t : Trail) : Command → Trail
  | .record l r => t.record l r
  | .clear s => t.clear s

def run (cs : List Command) : Trail := cs.foldl perform empty

theorem run_concat (cs : List Command) (c : Command) : run (cs ++ [c]) = (run cs).perform c := by
  simp [run]

/-- A record that a trail holds under a key. -/
def Files (t : Trail) (key : String) (r : Record) : Prop :=
  ∃ h ∈ t.histories, h.key = key ∧ r ∈ h.records

variable {t : Trail} {key : String} {r : Record}

theorem find_key_iff {h : History} :
    t.histories.find? (·.key = key) = some h ↔ h ∈ t.histories ∧ h.key = key := by
  constructor
  · intro found
    exact ⟨List.mem_of_find?_eq_some found, by simpa using List.find?_some found⟩
  · rintro ⟨hh, rfl⟩
    cases found : t.histories.find? (·.key = h.key) with
    | none => exact absurd (decide_eq_true rfl) (List.find?_eq_none.mp found h hh)
    | some g =>
      have hg := List.mem_of_find?_eq_some found
      have eq : g.key = h.key := by simpa using List.find?_some found
      rw [List.inj_on_of_nodup_map t.distinct hg hh eq]

theorem records_of_mem {h : History} (hh : h ∈ t.histories) : t.records h.key = h.records := by
  rw [records, find_key_iff.mpr ⟨hh, rfl⟩]

theorem mem_records : r ∈ t.records key ↔ t.Files key r := by
  constructor
  · intro mem
    rw [records] at mem
    split at mem
    · rename_i h found
      obtain ⟨hh, eq⟩ := find_key_iff.mp found
      exact ⟨h, hh, eq, mem⟩
    · cases mem
  · rintro ⟨h, hh, rfl, mem⟩
    rwa [records_of_mem hh]

theorem all_eq (t : Trail) :
    t.all = (t.histories.flatMap History.records).mergeSort fun r s => r.time ≤ s.time := by
  simp only [all, filtered, List.filter_true]

theorem mem_all : r ∈ t.all ↔ ∃ key, t.Files key r := by
  unfold Files
  rw [all_eq, (List.mergeSort_perm _ _).mem_iff, List.mem_flatMap]
  constructor
  · rintro ⟨h, hh, mem⟩
    exact ⟨h.key, h, hh, rfl, mem⟩
  · rintro ⟨_, h, hh, -, mem⟩
    exact ⟨h, hh, mem⟩

/-- Each record is held under the key of its subject. -/
def Filed (t : Trail) : Prop := ∀ h ∈ t.histories, ∀ r ∈ h.records, subjectKey r.subject = h.key

theorem filed_iff : t.Filed ↔ ∀ key r, t.Files key r → subjectKey r.subject = key := by
  constructor
  · rintro filed _ r ⟨h, hh, rfl, hr⟩
    exact filed h hh r hr
  · exact fun files h hh r hr => files h.key r ⟨h, hh, rfl, hr⟩

theorem Filed.files_iff (filed : t.Filed) :
    t.Files key r ↔ r ∈ t.all ∧ subjectKey r.subject = key := by
  constructor
  · exact fun h => ⟨mem_all.mpr ⟨key, h⟩, filed_iff.mp filed key r h⟩
  · rintro ⟨mem, rfl⟩
    obtain ⟨key, h⟩ := mem_all.mp mem
    rwa [filed_iff.mp filed key r h]

theorem files_erase {k : String} : (t.erase k).Files key r ↔ key ≠ k ∧ t.Files key r := by
  unfold Files erase
  simp only [List.mem_filter, decide_eq_true_eq]
  constructor
  · rintro ⟨h, ⟨hh, ne⟩, rfl, mem⟩
    exact ⟨ne, h, hh, rfl, mem⟩
  · rintro ⟨ne, h, hh, rfl, mem⟩
    exact ⟨h, ⟨hh, ne⟩, rfl, mem⟩

theorem files_of_append {perSubject : Nat} {new : Record}
    (h : (append perSubject t new).Files key r) :
    t.Files key r ∨ (r = new ∧ key = subjectKey new.subject) := by
  obtain ⟨g, hg, rfl, mem⟩ := h
  rcases mem_replace hg with rfl | hg
  · rcases List.mem_append.mp (List.mem_of_mem_drop mem) with mem | mem
    · exact .inl (mem_records.mp mem)
    · exact .inr ⟨List.mem_singleton.mp mem, rfl⟩
  · exact .inl ⟨g, hg, rfl, mem⟩

end Trail

end DataAccess.Audit
