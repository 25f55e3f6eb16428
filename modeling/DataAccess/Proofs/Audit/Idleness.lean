import DataAccess.Proofs.Audit.Retention

/-!
# Idleness

What is evicted has been idle at least as long as what is left: its last record, if it has any, is
no later than the last ones there (`History.NoLater`). Each turn of the eviction drops one history
which is no later than all others (`Evicts`); there are as many turns as histories have to go,
however the histories are looked through, and recording does nothing else to histories under other
keys (`record_admits`).
-/

namespace DataAccess.Audit

namespace History

/-- The last record of a history is no later than that of another. A history without records is
earlier than all others. -/
inductive NoLater (h g : History) : Prop where
  | unrecorded (none : h.records = [])
  | recorded {r s} (last : h.records.getLast? = some r) (other : g.records.getLast? = some s)
      (le : r.time ≤ s.time)

variable {h g f : History}

theorem isIdler_iff : h.isIdler g = true ↔ h.NoLater g := by
  rw [isIdler, latest?, latest?]
  cases last : h.records.getLast? with
  | none => exact iff_of_true rfl (.unrecorded (List.getLast?_eq_none_iff.mp last))
  | some r =>
    cases other : g.records.getLast? with
    | none =>
      refine iff_of_false Bool.false_ne_true ?_
      rintro (none | ⟨-, other', -⟩)
      · rw [none] at last
        cases last
      · cases other.symm.trans other'
    | some s =>
      refine decide_eq_true_iff.trans ⟨.recorded last other, ?_⟩
      rintro (none | ⟨last', other', le⟩)
      · rw [none] at last
        cases last
      · cases last.symm.trans last'
        cases other.symm.trans other'
        exact le

namespace NoLater

theorem total (h g : History) : h.NoLater g ∨ g.NoLater h := by
  cases last : h.records.getLast? with
  | none => exact .inl (.unrecorded (List.getLast?_eq_none_iff.mp last))
  | some r =>
    cases other : g.records.getLast? with
    | none => exact .inr (.unrecorded (List.getLast?_eq_none_iff.mp other))
    | some s =>
      exact (Instant.le_total r.time s.time).imp (.recorded last other) (.recorded other last)

theorem refl (h : History) : h.NoLater h := (total h h).elim id id

theorem trans (hg : h.NoLater g) (gf : g.NoLater f) : h.NoLater f := by
  cases hg with
  | unrecorded none => exact .unrecorded none
  | recorded last middle le =>
    cases gf with
    | unrecorded none =>
      rw [none] at middle
      cases middle
    | recorded middle' other le' =>
      cases middle.symm.trans middle'
      exact .recorded last other (Instant.le_trans le le')

end NoLater

end History

namespace Trail

theorem noLater_of_idlest? {hs : List History} {h : History} (idle : idlest? hs = some h) :
    ∀ g ∈ hs, h.NoLater g := by
  induction hs generalizing h with
  | nil => cases idle
  | cons f fs ih =>
    rw [List.forall_mem_cons]
    rw [idlest?] at idle
    split at idle
    · rename_i none
      cases idle
      rw [idlest?_eq_none_iff.mp none]
      exact ⟨.refl f, fun _ hg => absurd hg List.not_mem_nil⟩
    · rename_i g found
      split at idle
      · rename_i idler
        cases idle
        have first : f.NoLater g := History.isIdler_iff.mp idler
        exact ⟨.refl f, fun k hk => first.trans (ih found k hk)⟩
      · rename_i fresher
        cases idle
        have later : ¬f.NoLater h := mt History.isIdler_iff.mpr fresher
        exact ⟨(History.NoLater.total f h).resolve_left later, ih found⟩

/-- One turn of making room: the histories are looked through in some order, and an idlest one
goes. -/
inductive Evicts (subjects : Nat) (t : Trail) : String → Trail → Prop where
  | idlest {order h} (full : subjects ≤ t.subjectCount) (any : order.Perm t.histories)
      (idlest : idlest? order = some h) : Evicts subjects t h.key (t.erase h.key)

section
variable {subjects : Nat} {t u : Trail} {key : String}

theorem history?_eq_some_iff {h : History} :
    t.history? key = some h ↔ h ∈ t.histories ∧ h.key = key :=
  find_key_iff

/-- In whatever order the histories are looked through, there is one to evict. -/
theorem exists_idlest? (some : 0 < t.subjectCount) {order : List History}
    (any : order.Perm t.histories) : ∃ h, idlest? order = .some h := by
  rw [← Option.ne_none_iff_exists']
  intro none
  rw [idlest?_eq_none_iff.mp none, List.nil_perm] at any
  rw [subjectCount, any] at some
  exact Nat.lt_irrefl 0 some

theorem keys_erase (t : Trail) (key : String) : (t.erase key).histories.map History.key =
    (t.histories.map History.key).erase key := by
  rw [t.distinct.erase_eq_filter, List.filter_map, erase]
  apply congrArg (List.map History.key)
  apply List.filter_congr
  intro h _
  by_cases same : h.key = key <;> simp [same]

theorem subjectCount_erase (tracked : t.tracks key = true) :
    (t.erase key).subjectCount + 1 = t.subjectCount := by
  have mem : key ∈ t.histories.map History.key := by simpa [tracks] using tracked
  have length := congrArg List.length (keys_erase t key)
  have pos := List.length_pos_of_mem mem
  rw [List.length_erase_of_mem mem, List.length_map, List.length_map] at length
  rw [List.length_map] at pos
  unfold subjectCount
  omega

theorem tracks_erase_iff {k : String} :
    (t.erase key).tracks k = true ↔ k ≠ key ∧ t.tracks k = true := by
  rw [tracks_eq, tracks_eq, history?_erase]
  by_cases same : k = key <;> simp [same]

namespace Evicts

theorem tracked (h : Evicts subjects t key u) : t.tracks key = true := by
  obtain @⟨order, h, full, any, idlest⟩ := h
  rw [tracks_eq, history?_eq_some_iff.mpr ⟨any.mem_iff.mp (mem_of_idlest? idlest), rfl⟩]
  rfl

theorem subjectCount_eq (h : Evicts subjects t key u) : u.subjectCount + 1 = t.subjectCount := by
  have tracked := h.tracked
  cases h
  exact subjectCount_erase tracked

/-- What goes is no later than everything that was held. -/
theorem noLater (h : Evicts subjects t key u) {g : History} (hg : t.history? key = some g)
    {k : String} {f : History} (hf : t.history? k = some f) : g.NoLater f := by
  obtain @⟨order, h, full, any, idlest⟩ := h
  obtain ⟨hg, same⟩ := history?_eq_some_iff.mp hg
  have held := any.mem_iff.mp (mem_of_idlest? idlest)
  rw [List.inj_on_of_nodup_map t.distinct hg held same]
  exact noLater_of_idlest? idlest f (any.mem_iff.mpr (history?_eq_some_iff.mp hf).1)

end Evicts

theorem wellFounded_evicts (subjects : Nat) :
    WellFounded fun u t => ∃ key, Evicts subjects t key u := by
  refine Subrelation.wf ?_ (measure subjectCount).wf
  rintro u t ⟨key, turn⟩
  change u.subjectCount < t.subjectCount
  rw [← turn.subjectCount_eq]
  exact Nat.lt_succ_self _

namespace MakesRoom

variable {keys : List String}

/-- There are as many turns as histories have to go. -/
theorem length_keys (h : MakesRoom subjects t keys u) (pos : 0 < subjects) :
    keys.length = t.subjectCount + 1 - subjects := by
  induction h with
  | @room t enough =>
    have room : t.subjectCount < subjects := by
      rcases enough with enough | none
      · exact enough
      · rwa [subjectCount, none]
    exact (Nat.sub_eq_zero_of_le room).symm
  | @evict t u order h keys full any idlest rest ih =>
    have turn : Evicts subjects t h.key (t.erase h.key) := .idlest full any idlest
    have fewer := turn.subjectCount_eq
    rw [List.length_cons, ih]
    omega

theorem tracked (h : MakesRoom subjects t keys u) : ∀ k ∈ keys, t.tracks k = true := by
  induction h with
  | room => exact fun _ hk => absurd hk List.not_mem_nil
  | @evict t u order h keys full any idlest rest ih =>
    have turn : Evicts subjects t h.key (t.erase h.key) := .idlest full any idlest
    rw [List.forall_mem_cons]
    refine ⟨turn.tracked, ?_⟩
    exact fun k hk => (tracks_erase_iff.mp (ih k hk)).2

theorem nodup_keys (h : MakesRoom subjects t keys u) : keys.Nodup := by
  induction h with
  | room => exact List.nodup_nil
  | @evict t u order h keys full any idlest rest ih =>
    exact List.nodup_cons.mpr ⟨fun again => (tracks_erase_iff.mp (rest.tracked _ again)).1 rfl, ih⟩

theorem history?_of_left (h : MakesRoom subjects t keys u) {f : History}
    (hf : u.history? key = some f) : t.history? key = some f := by
  rw [h.history?_eq] at hf
  split at hf
  · cases hf
  · exact hf

/-- A history that goes at any turn is no later than all that are left in the end. -/
theorem noLater (h : MakesRoom subjects t keys u) (gone : key ∈ keys) {g : History}
    (hg : t.history? key = some g) {k : String} {f : History} (hf : u.history? k = some f) :
    g.NoLater f := by
  induction h with
  | room => cases gone
  | @evict t u order h keys full any idlest rest ih =>
    have turn : Evicts subjects t h.key (t.erase h.key) := .idlest full any idlest
    rcases List.mem_cons.mp gone with rfl | later
    · exact turn.noLater hg ((MakesRoom.evict full any idlest rest).history?_of_left hf)
    · refine ih later ?_ hf
      rw [history?_erase, if_neg (tracks_erase_iff.mp (rest.tracked key later)).1]
      exact hg

end MakesRoom

end

/-- What recording does to a trail, for which it evicts some keys: if the key of the record is
tracked it evicts none, and else as many as it takes to get below the limit. Histories under other
keys that are not evicted stay as they were, and the last record of an evicted one, if it had any,
is no later than the last of each of them. -/
structure Admits (l : Limits) (t : Trail) (r : Record) (keys : List String) (u : Trail) : Prop where
  known : t.tracks (subjectKey r.subject) = true → keys = []
  count : t.tracks (subjectKey r.subject) = false →
    keys.length = t.subjectCount + 1 - l.subjects
  nodup : keys.Nodup
  held : ∀ key ∈ keys, t.tracks key = true
  gone : ∀ key ∈ keys, u.tracks key = false
  kept : ∀ key, key ∉ keys → key ≠ subjectKey r.subject → u.history? key = t.history? key
  idlest : ∀ key ∈ keys, ∀ h, t.history? key = some h →
    ∀ k ≠ subjectKey r.subject, ∀ g, u.history? k = some g → h.NoLater g
  own : u.history? (subjectKey r.subject) =
    some ⟨subjectKey r.subject, lastRecords l.perSubject (t.records (subjectKey r.subject) ++ [r])⟩

section
variable {l : Limits} {t u : Trail} {r : Record} {keys : List String}

theorem admits_known (tracked : t.tracks (subjectKey r.subject) = true) :
    Admits l t r [] (append l.perSubject t r) where
  known _ := rfl
  count untracked := by simp [tracked] at untracked
  nodup := List.nodup_nil
  held _ hk := absurd hk List.not_mem_nil
  gone _ hk := absurd hk List.not_mem_nil
  kept key _ other := by rw [history?_append, if_neg other]
  idlest _ hk := absurd hk List.not_mem_nil
  own := by rw [history?_append, if_pos rfl]

theorem MakesRoom.admits (room : MakesRoom l.subjects t keys u) (pos : 0 < l.subjects)
    (untracked : t.tracks (subjectKey r.subject) = false) :
    Admits l t r keys (append l.perSubject u r) where
  known tracked := by simp [untracked] at tracked
  count _ := room.length_keys pos
  nodup := room.nodup_keys
  held := room.tracked
  gone := by
    intro key hk
    have other : key ≠ subjectKey r.subject := by
      rintro rfl
      simp [room.tracked _ hk] at untracked
    rw [tracks_eq, history?_append, if_neg other, room.history?_eq, if_pos hk]
    rfl
  kept := by
    intro key hk other
    rw [history?_append, if_neg other, room.history?_eq, if_neg hk]
  idlest := by
    intro key hk h hh k other g hg
    rw [history?_append, if_neg other] at hg
    exact room.noLater hk hh hg
  own := by
    have none : t.history? (subjectKey r.subject) = none := by simpa [tracks_eq] using untracked
    rw [history?_append, if_pos rfl, records_eq, records_eq, room.history?_eq, none, ite_self]

/-- Recording, with the keys that are evicted for it. The histories may be looked through in any
order. -/
def Recording (l : Limits) (t : Trail) (r : Record) (keys : List String) (u : Trail) : Prop :=
  Step l t (keys.map .evicted ++ [.recorded r]) u

theorem recording_iff :
    Recording l t r keys u ↔
      (t.tracks (subjectKey r.subject) = true ∧ keys = [] ∧ u = append l.perSubject t r) ∨
      (t.tracks (subjectKey r.subject) = false ∧
        ∃ v, MakesRoom l.subjects t keys v ∧ u = append l.perSubject v r) := by
  constructor
  · intro step
    unfold Recording at step
    generalize eq : keys.map Event.evicted ++ [.recorded r] = es at step
    cases step with
    | @known r' tracked =>
      obtain ⟨none, last⟩ := List.append_inj' (eq.trans (List.nil_append _).symm) rfl
      cases last
      exact .inl ⟨tracked, List.map_eq_nil_iff.mp none, rfl⟩
    | @new v keys' r' untracked room =>
      obtain ⟨evicted, last⟩ := List.append_inj' eq rfl
      cases last
      have same : keys = keys' :=
        List.map_injective_iff.mpr (fun _ _ => Event.evicted.inj) evicted
      exact .inr ⟨untracked, v, same ▸ room, rfl⟩
    | clear s =>
      obtain ⟨-, last⟩ := List.append_inj' (eq.trans (List.nil_append _).symm) rfl
      cases last
  · rintro (⟨tracked, rfl, rfl⟩ | ⟨untracked, v, room, rfl⟩)
    · exact .known tracked
    · exact .new untracked room

/-- Whatever the order at each turn, recording admits the record. Evicting comes to an end: while
the trail is full there is a history to evict, and no sequence of turns goes on for ever. The trail
may hold more subjects than the limit, which is positive as in `Limits.withSubjects`. -/
theorem record_admits (pos : 0 < l.subjects) (t : Trail) (r : Record) :
    (∀ keys u, Recording l t r keys u → Admits l t r keys u) ∧
      (∃ keys, Recording l t r keys (t.record l r)) ∧
      (l.subjects ≤ t.subjectCount → ∀ order : List History, order.Perm t.histories →
        ∃ h, idlest? order = some h) ∧
      Acc (fun v u => ∃ key, Evicts l.subjects u key v) t := by
  refine ⟨?_, exists_step_record l t r, ?_, (wellFounded_evicts l.subjects).apply t⟩
  · intro keys u recording
    rcases recording_iff.mp recording with ⟨tracked, rfl, rfl⟩ | ⟨untracked, v, room, rfl⟩
    · exact admits_known tracked
    · exact room.admits pos untracked
  · exact fun full order any => exists_idlest? (Nat.lt_of_lt_of_le pos full) any

end

/-- Three subjects, kept by a user of the trail who may keep as many. -/
def crowd : Trail := run (["u-1", "u-2", "u-3"].map fun s => .record ⟨1, 3⟩ (visit s))

/-- A user who may keep two subjects evicts two of the three to record a fourth. -/
theorem record_admits_in_crowd :
    0 < (⟨1, 2⟩ : Limits).subjects ∧
      ∃ keys, Recording ⟨1, 2⟩ crowd (visit "u-4") keys (crowd.record ⟨1, 2⟩ (visit "u-4")) ∧
        Admits ⟨1, 2⟩ crowd (visit "u-4") keys (crowd.record ⟨1, 2⟩ (visit "u-4")) ∧
        keys.length = 2 := by
  have pos : 0 < (⟨1, 2⟩ : Limits).subjects := by decide
  obtain ⟨each, ⟨keys, recording⟩, -⟩ := record_admits pos crowd (visit "u-4")
  have admits := each keys _ recording
  exact ⟨pos, keys, recording, admits, admits.count (by decide)⟩

end Trail

end DataAccess.Audit
