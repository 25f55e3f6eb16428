import DataAccess.Proofs.Audit.Retention

/-!
# Isolation

A step keeps records where they are, drops some, or files one new record under the key of its
subject (`Step.files`). So a trail holds only what was recorded, each record under its own key
(`Reached.files`). Histories are thus kept by subject, but a subject that is named like the key of
requests without one shares their history. A query for a subject shows only its own records, and
clearing the subject drops no others, exactly when nothing is held of the one that it is confused
with (`run_isolates_iff`).
-/

namespace DataAccess.Audit

/-- Requests without a subject, and those of the subject that is named like their key. -/
inductive Confused : Option String → Option String → Prop
  | named : Confused none (some "<anonymous>")
  | unnamed : Confused (some "<anonymous>") none

theorem Confused.ne {s s' : Option String} (h : Confused s s') : s' ≠ s := by
  cases h <;> simp

/-- Keys tell subjects apart, but for the confused ones. -/
theorem subjectKey_eq_iff {s s' : Option String} :
    subjectKey s' = subjectKey s ↔ s' = s ∨ Confused s s' := by
  constructor
  · intro eq
    cases s with
    | none =>
      cases s' with
      | none => exact .inl rfl
      | some b =>
        cases (eq : b = "<anonymous>")
        exact .inr .named
    | some a =>
      cases s' with
      | none =>
        cases (eq : "<anonymous>" = a)
        exact .inr .unnamed
      | some b => exact .inl (congrArg some eq)
  · rintro (rfl | named | unnamed) <;> rfl

namespace Trail

/-- A query for a subject shows only its records. -/
def ShowsOnly (t : Trail) (s : Option String) : Prop := ∀ r ∈ t.recordsFor s, r.subject = s

/-- Clearing a subject drops no record of others, however often it is held. -/
def ClearsOnly (t : Trail) (s : Option String) : Prop :=
  ∀ r ∈ t.all, r.subject ≠ s → (t.clear s).all.count r = t.all.count r

theorem all_perm (t : Trail) : t.all.Perm (t.histories.flatMap History.records) := by
  rw [all_eq]
  exact List.mergeSort_perm _ _

/-- Where each record is filed under the key of its subject, choosing histories by their keys is
choosing records. -/
theorem flatMap_records_filter (q : String → Bool) {hs : List History}
    (filed : ∀ h ∈ hs, ∀ r ∈ h.records, subjectKey r.subject = h.key) :
    (hs.filter (q ·.key)).flatMap History.records =
      (hs.flatMap History.records).filter (q <| subjectKey ·.subject) := by
  induction hs with
  | nil => rfl
  | cons h hs ih =>
    obtain ⟨here, rest⟩ := List.forall_mem_cons.mp filed
    rw [List.flatMap_cons, List.filter_append, ← ih rest]
    have chosen : h.records.filter (q <| subjectKey ·.subject) =
        h.records.filter fun _ => q h.key := by
      apply List.filter_congr
      intro r hr
      rw [here r hr]
    by_cases picked : q h.key = true <;> simp [chosen, picked]

/-- A trail that comes about by events. Each step may have limits of its own, and histories may be
looked through in another order each time. -/
inductive Reached : List Event → Trail → Prop where
  | empty : Reached [] empty
  | step {l es es' t u} (before : Reached es t) (step : Step l t es' u) : Reached (es ++ es') u
  | listed {es t u} (before : Reached es t) (any : u.histories.Perm t.histories) : Reached es u

section
variable {es : List Event} {t u : Trail} {key : String} {s : Option String} {r : Record}

theorem MakesRoom.files {subjects : Nat} {keys : List String} (room : MakesRoom subjects t keys u)
    (files : u.Files key r) : t.Files key r := by
  induction room with
  | room => exact files
  | evict full any idlest rest ih => exact (files_erase.mp (ih files)).2

/-- A step files nothing but the record that it is about, under the key of its subject. -/
theorem Step.files {l : Limits} (step : Step l t es u) (files : u.Files key r) :
    t.Files key r ∨ .recorded r ∈ es ∧ subjectKey r.subject = key := by
  cases step with
  | known tracked =>
    rcases files_of_append files with old | ⟨rfl, rfl⟩
    · exact .inl old
    · exact .inr ⟨List.mem_cons_self, rfl⟩
  | new untracked room =>
    rcases files_of_append files with old | ⟨rfl, rfl⟩
    · exact .inl (room.files old)
    · exact .inr ⟨List.mem_append_right _ List.mem_cons_self, rfl⟩
  | clear s => exact .inl (files_erase.mp files).2

/-- A trail holds what was recorded, each record under the key of its subject. -/
theorem Reached.files (reached : Reached es t) (files : t.Files key r) :
    .recorded r ∈ es ∧ subjectKey r.subject = key := by
  induction reached with
  | empty =>
    obtain ⟨h, hh, -⟩ := files
    cases hh
  | step before step ih =>
    rcases step.files files with old | ⟨recorded, filed⟩
    · exact ⟨List.mem_append_left _ (ih old).1, (ih old).2⟩
    · exact ⟨List.mem_append_right _ recorded, filed⟩
  | listed before any ih =>
    obtain ⟨h, hh, filed, mem⟩ := files
    exact ih ⟨h, any.mem_iff.mp hh, filed, mem⟩

theorem Reached.filed (reached : Reached es t) : t.Filed :=
  filed_iff.mpr fun _ _ files => (reached.files files).2

theorem Reached.recorded_of_mem (reached : Reached es t) (mem : r ∈ t.all) : .recorded r ∈ es := by
  obtain ⟨key, files⟩ := mem_all.mp mem
  exact (reached.files files).1

/-- The step of a command records what the command does. -/
theorem exists_step (t : Trail) (c : Command) :
    ∃ l es, Step l t es (t.perform c) ∧ ∀ r, .recorded r ∈ es ↔ ∃ l, c = .record l r := by
  obtain ⟨l, within⟩ : ∃ l, c.Within l := by
    cases c with
    | record l r => exact ⟨l, rfl⟩
    | clear s => exact ⟨{}, trivial⟩
  obtain ⟨es, commands, step⟩ := step_perform within t
  refine ⟨l, es, step, fun r => ?_⟩
  constructor
  · intro recorded
    have mem : Command.record l r ∈ es.filterMap (Event.command? l) :=
      List.mem_filterMap.mpr ⟨_, recorded, rfl⟩
    rw [commands, List.mem_singleton] at mem
    exact ⟨l, mem.symm⟩
  · rintro ⟨l', rfl⟩
    have mem : Command.record l' r ∈ es.filterMap (Event.command? l) :=
      commands ▸ List.mem_cons_self
    obtain ⟨e, he, command⟩ := List.mem_filterMap.mp mem
    cases e <;> cases command
    exact he

/-- A run comes about by events that record what its commands do. -/
theorem reached_run (cs : List Command) :
    ∃ es, Reached es (run cs) ∧ ∀ r, .recorded r ∈ es ↔ ∃ l, Command.record l r ∈ cs := by
  induction cs using List.reverseRecOn with
  | nil => exact ⟨[], .empty, by simp⟩
  | append_singleton cs c ih =>
    obtain ⟨es, before, recorded⟩ := ih
    obtain ⟨l, es', step, records⟩ := exists_step (run cs) c
    refine ⟨es ++ es', ?_, fun r => ?_⟩
    · rw [run_concat]
      exact .step before step
    · simp only [List.mem_append, List.mem_singleton, recorded, records, ← exists_or, eq_comm]

theorem Filed.mem_recordsFor (filed : t.Filed) :
    r ∈ t.recordsFor s ↔ r ∈ t.all ∧ subjectKey r.subject = subjectKey s := by
  rw [recordsFor, mem_records, filed.files_iff]

/-- Clearing drops the records with the key of the subject. -/
theorem Filed.all_clear (filed : t.Filed) :
    (t.clear s).all.Perm (t.all.filter (subjectKey ·.subject ≠ subjectKey s)) := by
  apply (all_perm _).trans
  rw [clear, erase, flatMap_records_filter (· ≠ subjectKey s) filed]
  exact ((all_perm _).filter _).symm

theorem Filed.showsOnly_iff (filed : t.Filed) :
    t.ShowsOnly s ↔ ∀ r ∈ t.all, ¬Confused s r.subject := by
  constructor
  · intro shows r hr confused
    have mem := filed.mem_recordsFor.mpr ⟨hr, subjectKey_eq_iff.mpr (.inr confused)⟩
    exact confused.ne (shows r mem)
  · intro apart r hr
    obtain ⟨hr, key⟩ := filed.mem_recordsFor.mp hr
    exact (subjectKey_eq_iff.mp key).resolve_right (apart r hr)

theorem Filed.clearsOnly_iff (filed : t.Filed) :
    t.ClearsOnly s ↔ ∀ r ∈ t.all, ¬Confused s r.subject := by
  constructor
  · intro clears r hr confused
    have kept : r ∈ (t.clear s).all := by
      rw [← List.count_pos_iff, clears r hr confused.ne]
      exact List.count_pos_iff.mpr hr
    have apart := (List.mem_filter.mp (filed.all_clear.mem_iff.mp kept)).2
    exact of_decide_eq_true apart (subjectKey_eq_iff.mpr (.inr confused))
  · intro apart r hr other
    rw [filed.all_clear.count_eq]
    apply List.count_filter
    apply decide_eq_true
    intro key
    exact (subjectKey_eq_iff.mp key).elim other (apart r hr)

end

/-- However a trail has come about, a subject is kept apart from others as long as nothing is held
of the one that it is confused with, so in any case while that one is not recorded at all. The
events of a run record what its commands do. -/
theorem run_isolates_iff (s : Option String) :
    (∀ es t, Reached es t →
      (t.ShowsOnly s ↔ ∀ r ∈ t.all, ¬Confused s r.subject) ∧
        (t.ClearsOnly s ↔ ∀ r ∈ t.all, ¬Confused s r.subject) ∧
        ((∀ r, .recorded r ∈ es → ¬Confused s r.subject) → t.ShowsOnly s ∧ t.ClearsOnly s)) ∧
      ∀ cs, ∃ es, Reached es (run cs) ∧ ∀ r, .recorded r ∈ es ↔ ∃ l, Command.record l r ∈ cs := by
  refine ⟨?_, reached_run⟩
  intro es t reached
  refine ⟨reached.filed.showsOnly_iff, reached.filed.clearsOnly_iff, ?_⟩
  intro unrecorded
  have apart : ∀ r ∈ t.all, ¬Confused s r.subject :=
    fun r hr => unrecorded r (reached.recorded_of_mem hr)
  exact ⟨reached.filed.showsOnly_iff.mpr apart, reached.filed.clearsOnly_iff.mpr apart⟩

/-- The visitors of a document are kept apart from requests without a subject. -/
theorem run_isolates_visits :
    ∃ es, Reached es (run visits) ∧ (∀ r, .recorded r ∈ es → ¬Confused none r.subject) ∧
      (run visits).ShowsOnly none ∧ (run visits).ClearsOnly none := by
  obtain ⟨isolates, runs⟩ := run_isolates_iff none
  obtain ⟨es, reached, recorded⟩ := runs visits
  have apart : ∀ r, .recorded r ∈ es → ¬Confused none r.subject := by
    intro r hr confused
    obtain ⟨l, mem⟩ := (recorded r).mp hr
    obtain ⟨subject, listed, command⟩ := List.mem_map.mp mem
    cases command
    generalize same : (visit subject).subject = other at confused
    cases confused
    cases (Option.some.inj same : subject = "<anonymous>")
    exact absurd listed (by decide)
  exact ⟨es, reached, apart, (isolates es _ reached).2.2 apart⟩

/-- The record of a subject that is named like the key of requests without one. -/
def namesake : Record :=
  { id := .nil, time := .epoch, subject := some "<anonymous>", tenant := none
    action := some "read", resource := some "doc", verdict := .allow, reason := "ok"
    allowIds := ["a"], denyIds := [] }

/-- The subject's record is shown for requests without a subject, and cleared with them. -/
theorem namesake_shown_and_cleared :
    namesake ∈ (run [.record {} namesake]).recordsFor none ∧
      namesake ∈ (run [.record {} namesake]).all ∧
      namesake ∉ ((run [.record {} namesake]).clear none).all := by
  obtain ⟨es, reached, -⟩ := reached_run [.record {} namesake]
  have held : namesake ∈ (run [.record {} namesake]).recordsFor none := by decide
  have shown := reached.filed.mem_recordsFor.mp held
  refine ⟨held, shown.1, ?_⟩
  intro kept
  have apart := (List.mem_filter.mp (reached.filed.all_clear.mem_iff.mp kept)).2
  exact of_decide_eq_true apart shown.2

end Trail

end DataAccess.Audit
