import DataAccess.Proofs.Audit.Eviction
import Mathlib.Data.List.DropRight

/-!
# Retention

With limits that stay the same, a trail tracks no more subjects than it may, and holds under each
key the latest of the records since the key was last dropped, as many as it may (`runs_retain`).
What a run does is told by its events, of which evictions are some.
-/

namespace DataAccess.Audit

/-- The step is done with these limits, if it needs any. -/
def Command.Within (l : Limits) : Command → Prop
  | record limits _ => limits = l
  | clear _ => True

/-- What happens to a trail. -/
inductive Event where
  | recorded (r : Record)
  | cleared (subject : Option String)
  | evicted (key : String)

namespace Event

/-- The command that an event is the effect of. Evictions come with another event. -/
def command? (l : Limits) : Event → Option Command
  | recorded r => some (.record l r)
  | cleared s => some (.clear s)
  | evicted _ => none

/-- Whether what was recorded under a key is dropped. -/
def drops (key : String) : Event → Bool
  | recorded _ => false
  | cleared s => key = subjectKey s
  | evicted k => key = k

/-- What is recorded under a key. -/
def recordUnder? (key : String) : Event → Option Record
  | recorded r => if key = subjectKey r.subject then some r else none
  | _ => none

/-- The records under a key since it was last dropped. -/
def since (key : String) (es : List Event) : List Record :=
  (es.rtakeWhile fun e => !e.drops key).filterMap (recordUnder? key)

section
variable (key : String) (es : List Event)

@[simp] theorem since_nil : since key [] = [] := rfl

theorem since_concat (e : Event) :
    since key (es ++ [e]) =
      if e.drops key then [] else since key es ++ (e.recordUnder? key).toList := by
  unfold since
  rw [List.rtakeWhile_concat]
  by_cases dropped : e.drops key = true
  · simp [dropped]
  · rw [if_pos (by simpa using dropped), if_neg dropped, List.filterMap_append]
    cases found : e.recordUnder? key <;> simp [found]

@[simp] theorem since_recorded (r : Record) :
    since key (es ++ [recorded r]) =
      if key = subjectKey r.subject then since key es ++ [r] else since key es := by
  rw [since_concat]
  by_cases same : key = subjectKey r.subject <;> simp [drops, recordUnder?, same]

@[simp] theorem since_cleared (s : Option String) :
    since key (es ++ [cleared s]) = if key = subjectKey s then [] else since key es := by
  rw [since_concat]
  by_cases same : key = subjectKey s <;> simp [drops, recordUnder?, same]

@[simp] theorem since_evicted (keys : List String) :
    since key (es ++ keys.map evicted) = if key ∈ keys then [] else since key es := by
  induction keys using List.reverseRecOn with
  | nil => simp
  | append_singleton keys k ih =>
    rw [List.map_append, ← List.append_assoc, List.map_singleton, since_concat, ih]
    by_cases same : key = k <;> simp [drops, recordUnder?, same]

end

end Event

namespace Trail

/-- The events of one step. -/
inductive Step (l : Limits) : Trail → List Event → Trail → Prop
  | known {t r} (tracked : t.tracks (subjectKey r.subject) = true) :
      Step l t [.recorded r] (append l.perSubject t r)
  | new {t u keys r} (untracked : t.tracks (subjectKey r.subject) = false)
      (room : MakesRoom l.subjects t keys u) :
      Step l t (keys.map .evicted ++ [.recorded r]) (append l.perSubject u r)
  | clear (t s) : Step l t [.cleared s] (t.clear s)

/-- The events of a run. -/
inductive Runs (l : Limits) : List Event → Trail → Prop
  | empty : Runs l [] empty
  | step {es es' t u} (before : Runs l es t) (step : Step l t es' u) : Runs l (es ++ es') u

theorem exists_step_record (l : Limits) (t : Trail) (r : Record) :
    ∃ keys : List String, Step l t (keys.map .evicted ++ [.recorded r]) (t.record l r) := by
  rw [record]
  by_cases tracked : t.tracks (subjectKey r.subject) = true
  · rw [if_pos tracked]
    exact ⟨[], .known tracked⟩
  · rw [if_neg tracked]
    obtain ⟨keys, room⟩ := makesRoom_makeRoom l.subjects (Nat.le_refl t.subjectCount)
    exact ⟨keys, .new (Bool.eq_false_iff.mpr tracked) room⟩

theorem step_perform {l : Limits} {c : Command} (within : c.Within l) (t : Trail) :
    ∃ es, es.filterMap (Event.command? l) = [c] ∧ Step l t es (t.perform c) := by
  cases c with
  | clear s => exact ⟨_, rfl, .clear t s⟩
  | record limits r =>
    cases (within : limits = l)
    obtain ⟨keys, step⟩ := exists_step_record l t r
    refine ⟨_, ?_, step⟩
    simp [List.filterMap_append, List.filterMap_map, Function.comp_def, Event.command?]

theorem runs_run {l : Limits} {cs : List Command} (within : ∀ c ∈ cs, c.Within l) :
    ∃ es, es.filterMap (Event.command? l) = cs ∧ Runs l es (run cs) := by
  induction cs using List.reverseRecOn with
  | nil => exact ⟨[], rfl, .empty⟩
  | append_singleton cs c ih =>
    rw [List.forall_mem_append, List.forall_mem_singleton] at within
    obtain ⟨es, commands, before⟩ := ih within.1
    obtain ⟨es', command, step⟩ := step_perform within.2 (run cs)
    refine ⟨es ++ es', ?_, ?_⟩
    · rw [List.filterMap_append, commands, command]
    · rw [run_concat]
      exact .step before step

theorem lastRecords_append (n : Nat) (rs : List Record) (r : Record) :
    lastRecords n (lastRecords n rs ++ [r]) = lastRecords n (rs ++ [r]) := by
  unfold lastRecords
  rw [← List.drop_append_of_le_length (Nat.sub_le _ _), List.drop_drop]
  congr 1
  rw [List.length_drop, List.length_append, List.length_singleton]
  omega

/-- What a trail should hold under a key of what was recorded there. -/
def retained? (n : Nat) (key : String) : List Record → Option History
  | [] => none
  | rs => some ⟨key, lastRecords n rs⟩

theorem retained?_concat (n : Nat) (key : String) (rs : List Record) (r : Record) :
    retained? n key (rs ++ [r]) = some ⟨key, lastRecords n (rs ++ [r])⟩ := by
  cases rs <;> rfl

theorem records_of_retained? (n : Nat) (key : String) (rs : List Record) :
    ((retained? n key rs).map History.records).getD [] = lastRecords n rs := by
  cases rs with
  | nil => exact List.drop_nil.symm
  | cons => rfl

theorem isSome_retained?_iff {n : Nat} {key : String} {rs : List Record} :
    (retained? n key rs).isSome ↔ rs ≠ [] := by
  cases rs <;> simp [retained?]

/-- The invariant of a run: what is under each key follows from the events. -/
structure Follows (l : Limits) (es : List Event) (t : Trail) : Prop where
  count : t.subjectCount ≤ l.subjects
  history : ∀ key, t.history? key = retained? l.perSubject key (Event.since key es)

section
variable {l : Limits} {es : List Event} {t : Trail}

theorem Follows.records (h : Follows l es t) (key : String) :
    t.records key = lastRecords l.perSubject (Event.since key es) := by
  rw [records_eq, h.history, records_of_retained?]

theorem Follows.history?_append (h : Follows l es t) (r : Record) (key : String) :
    (append l.perSubject t r).history? key =
      retained? l.perSubject key (Event.since key (es ++ [.recorded r])) := by
  rw [Trail.history?_append, Event.since_recorded]
  split
  · rename_i same
    subst same
    rw [retained?_concat, h.records, lastRecords_append]
  · exact h.history key

theorem Follows.append_known (h : Follows l es t) {r : Record}
    (tracked : t.tracks (subjectKey r.subject) = true) :
    Follows l (es ++ [.recorded r]) (append l.perSubject t r) where
  count := by
    rw [subjectCount_append, if_pos tracked]
    exact h.count
  history := h.history?_append r

/-- Evictions leave the histories under other keys as they were. -/
theorem Follows.makesRoom (h : Follows l es t) {keys : List String} {u : Trail}
    (room : MakesRoom l.subjects t keys u) (pos : 0 < l.subjects) :
    Follows l (es ++ keys.map .evicted) u where
  count := Nat.le_of_lt (room.subjectCount_lt pos)
  history := by
    intro key
    rw [room.history?_eq, Event.since_evicted]
    split
    · rfl
    · exact h.history key

theorem Follows.step (h : Follows l es t) (pos : 0 < l.subjects) {es' : List Event} {u : Trail}
    (step : Step l t es' u) : Follows l (es ++ es') u := by
  cases step with
  | known tracked => exact h.append_known tracked
  | clear s =>
    constructor
    · exact Nat.le_trans (subjectCount_erase_le _ _) h.count
    · intro key
      rw [clear, history?_erase, Event.since_cleared]
      split
      · rfl
      · exact h.history key
  | @new u keys r untracked room =>
    have evicted := h.makesRoom room pos
    rw [← List.append_assoc]
    refine ⟨?_, evicted.history?_append r⟩
    have fewer := room.subjectCount_lt pos
    rw [subjectCount_append]
    split
    · exact evicted.count
    · exact fewer

theorem Runs.follows (h : Runs l es t) (pos : 0 < l.subjects) : Follows l es t := by
  induction h with
  | empty => exact ⟨Nat.zero_le _, fun _ => rfl⟩
  | step _ step ih => exact ih.step pos step

end

/-- A trail that keeps to its limits and holds, under each key, the latest of the records since the
key was last dropped. -/
structure Retains (l : Limits) (es : List Event) (t : Trail) : Prop where
  subjects : t.subjectCount ≤ l.subjects
  perSubject : ∀ h ∈ t.histories, h.records.length ≤ l.perSubject
  tracked : ∀ key, t.tracks key = true ↔ Event.since key es ≠ []
  latest : ∀ key, t.records key <:+ Event.since key es
  length : ∀ key, (t.records key).length = min l.perSubject (Event.since key es).length

theorem length_lastRecords (n : Nat) (rs : List Record) :
    (lastRecords n rs).length = min n rs.length := by
  rw [lastRecords, List.length_drop]
  omega

theorem Follows.retains {l : Limits} {es : List Event} {t : Trail} (h : Follows l es t) :
    Retains l es t where
  subjects := h.count
  perSubject := by
    intro g hg
    rw [← records_of_mem hg, h.records, length_lastRecords]
    exact Nat.min_le_left _ _
  tracked := by
    intro key
    rw [tracks_eq, h.history, isSome_retained?_iff]
  latest := by
    intro key
    rw [h.records]
    exact List.drop_suffix _ _
  length := by
    intro key
    rw [h.records, length_lastRecords]

/-- A trail whose limits stay the same keeps to them, and of the records since a key was last
cleared or evicted it holds the latest, in whatever order idle histories are looked for. The
commands of any run have such events. -/
theorem runs_retain {l : Limits} (pos : 0 < l.subjects) :
    (∀ es t, Runs l es t → Retains l es t) ∧
      ∀ cs, (∀ c ∈ cs, c.Within l) →
        ∃ es, es.filterMap (Event.command? l) = cs ∧ Runs l es (run cs) :=
  ⟨fun _ _ h => (h.follows pos).retains, fun _ => runs_run⟩

/-- A subject is allowed to read a document. -/
def visit (subject : String) : Record :=
  { id := .nil, time := .epoch, subject := some subject, tenant := none
    action := some "read", resource := some "doc", verdict := .allow, reason := "ok"
    allowIds := ["a"], denyIds := [] }

/-- Room for two decisions on a single subject. -/
def narrow : Limits := ⟨2, 1⟩

/-- One subject comes three times, gives way to another, and comes back. -/
def visits : List Command :=
  ["u-1", "u-1", "u-1", "u-2", "u-1"].map fun subject => .record narrow (visit subject)

theorem visits_retained :
    0 < narrow.subjects ∧
      ∃ es, es.filterMap (Event.command? narrow) = visits ∧ Retains narrow es (run visits) := by
  have pos : 0 < narrow.subjects := by decide
  have within : ∀ c ∈ visits, c.Within narrow := by
    intro c hc
    obtain ⟨subject, -, rfl⟩ := List.mem_map.mp hc
    rfl
  obtain ⟨es, commands, runs⟩ := (runs_retain pos).2 visits within
  exact ⟨pos, es, commands, (runs_retain pos).1 es _ runs⟩

end Trail

end DataAccess.Audit
