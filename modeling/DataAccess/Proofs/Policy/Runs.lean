import DataAccess.Policy.Store
import DataAccess.Proofs.Text.Order
import Mathlib.Data.List.Induction

/-!
# Runs of a store

A store is filled and emptied by commands, some of which it refuses. What one command may do is said
once (`Step`). An id then stands for the policy that was put last under it and not removed since
(`get_after_iff`), and each policy stays under its own id (`Keyed`). This makes the listing strictly
ordered, whatever the order in which the policies are looked through (`after_reflects`).
-/

namespace DataAccess.PolicyStore

/-- A command with what came of it. -/
abbrev Event := Command × Except PolicyError Unit

def after (s : PolicyStore) (cs : List Command) : PolicyStore := cs.foldl (fun s c => (s.run c).1) s

/-- What happens when commands are given to a store one after the other. -/
def events (s : PolicyStore) : List Command → List Event
  | [] => []
  | c :: cs => (c, (s.run c).2) :: events (s.run c).1 cs

theorem after_concat (s : PolicyStore) (cs : List Command) (c : Command) :
    s.after (cs ++ [c]) = ((s.after cs).run c).1 := by
  simp [after]

theorem events_concat (s : PolicyStore) (cs : List Command) (c : Command) :
    s.events (cs ++ [c]) = s.events cs ++ [(c, ((s.after cs).run c).2)] := by
  induction cs generalizing s with
  | nil => rfl
  | cons d cs ih =>
    rw [List.cons_append, events, ih]
    rfl

/-- A policy was added or updated, and this was not refused. -/
def Puts (e : Event) (p : Policy) : Prop := (e.1 = .add p ∨ e.1 = .update p) ∧ e.2 = .ok ()

/-- Nothing was put under an id, and it was not removed, alone or with all others. -/
def Spares (e : Event) (id : String) : Prop :=
  (∀ p, Puts e p → p.id ≠ id) ∧ e.1 ≠ .remove id ∧ e.1 ≠ .clear

/-- The policy that was put last under an id, if the id was not removed after that. -/
def Stands (es : List Event) (id : String) (p : Policy) : Prop :=
  ∃ before e later, es = before ++ e :: later ∧ Puts e p ∧ p.id = id ∧ ∀ f ∈ later, Spares f id

section
variable {es : List Event} {e : Event} {id : String} {p : Policy}

theorem not_stands_nil : ¬Stands [] id p := by
  rintro ⟨before, e, later, eq, -⟩
  simp at eq

theorem stands_concat :
    Stands (es ++ [e]) id p ↔ Puts e p ∧ p.id = id ∨ Stands es id p ∧ Spares e id := by
  constructor
  · rintro ⟨before, f, later, eq, put, named, spared⟩
    rcases List.eq_nil_or_concat' later with rfl | ⟨later, g, rfl⟩
    · obtain ⟨-, last⟩ := List.append_inj' eq rfl
      cases last
      exact .inl ⟨put, named⟩
    · have eq : es ++ [e] = (before ++ f :: later) ++ [g] := by simpa using eq
      obtain ⟨rfl, last⟩ := List.append_inj' eq rfl
      cases last
      refine .inr ⟨⟨before, f, later, rfl, put, named, fun g hg => ?_⟩, ?_⟩
      · exact spared g (List.mem_append_left _ hg)
      · exact spared e (List.mem_append_right _ List.mem_cons_self)
  · rintro (⟨put, named⟩ | ⟨⟨before, f, later, rfl, put, named, spared⟩, spares⟩)
    · exact ⟨es, e, [], rfl, put, named, by simp⟩
    · refine ⟨before, f, later ++ [e], by simp, put, named, fun g hg => ?_⟩
      rcases List.mem_append.mp hg with hg | hg
      · exact spared g hg
      · exact List.mem_singleton.mp hg ▸ spares

end

section
variable {s : PolicyStore} {c : Command} {e : PolicyError} {id : String} {p q : Policy}

theorem get_eq_ok_iff : s.get id = .ok p ↔ s.policies.get? id = some p := by
  rw [get]
  cases s.policies.get? id <;> simp

theorem get_eq_error_iff : s.get id = .error e ↔ e = .notFound id ∧ ∀ p, s.get id ≠ .ok p := by
  simp only [ne_eq, get]
  cases s.policies.get? id <;> simp [eq_comm]

theorem contains_iff : s.contains id = true ↔ ∃ p, s.get id = .ok p := by
  simp only [contains, Option.isSome_iff_exists, get_eq_ok_iff]

theorem not_contains_iff : ¬s.contains id = true ↔ ∀ p, s.get id ≠ .ok p := by
  rw [contains_iff, not_exists]

theorem get_put : (s.put q).get id = .ok p ↔ q = p ∧ p.id = id ∨ s.get id = .ok p ∧ q.id ≠ id := by
  rw [get_eq_ok_iff, get_eq_ok_iff, put, Dictionary.get?_insert]
  by_cases same : q.id = id
  · simp only [same, if_true, Option.some.injEq, ne_eq, not_true, and_false, or_false]
    exact ⟨fun eq => ⟨eq, eq ▸ same⟩, And.left⟩
  · simp only [same, if_false, ne_eq, not_false_eq_true, and_true]
    refine (or_iff_right ?_).symm
    rintro ⟨rfl, named⟩
    exact same named

theorem get_erase {gone : String} :
    (mk (s.policies.erase gone)).get id = .ok p ↔ s.get id = .ok p ∧ gone ≠ id := by
  rw [get_eq_ok_iff, get_eq_ok_iff, Dictionary.get?_erase]
  by_cases same : gone = id <;> simp [same]

theorem get_empty : empty.get id ≠ .ok p := nofun

/-- When and how a command is refused. -/
inductive Refused (s : PolicyStore) : Command → PolicyError → Prop where
  | add {p : Policy} (present : ∃ q, s.get p.id = .ok q) : Refused s (.add p) (.conflict p.id)
  | update {p : Policy} (absent : ∀ q, s.get p.id ≠ .ok q) : Refused s (.update p) (.notFound p.id)
  | remove {id : String} (absent : ∀ q, s.get id ≠ .ok q) : Refused s (.remove id) (.notFound id)

/-- All that a command may do. -/
inductive Step (s : PolicyStore) : Command → PolicyStore × Except PolicyError Unit → Prop where
  | refused {c : Command} {e : PolicyError} (refused : Refused s c e) : Step s c (s, .error e)
  | add {p : Policy} (absent : ∀ q, s.get p.id ≠ .ok q) : Step s (.add p) (s.put p, .ok ())
  | update {p : Policy} (present : ∃ q, s.get p.id = .ok q) : Step s (.update p) (s.put p, .ok ())
  | remove {id : String} (present : ∃ q, s.get id = .ok q) :
      Step s (.remove id) (⟨s.policies.erase id⟩, .ok ())
  | clear : Step s .clear (empty, .ok ())

theorem step_run (s : PolicyStore) (c : Command) : Step s c (s.run c) := by
  cases c with
  | add p =>
    by_cases present : s.contains p.id = true
    · rw [run, if_pos present]
      exact .refused (.add (contains_iff.mp present))
    · rw [run, if_neg present]
      exact .add (not_contains_iff.mp present)
  | update p =>
    by_cases present : s.contains p.id = true
    · rw [run, if_pos present]
      exact .update (contains_iff.mp present)
    · rw [run, if_neg present]
      exact .refused (.update (not_contains_iff.mp present))
  | remove id =>
    by_cases present : s.contains id = true
    · rw [run, if_pos present]
      exact .remove (contains_iff.mp present)
    · rw [run, if_neg present]
      exact .refused (.remove (not_contains_iff.mp present))
  | clear => exact .clear

theorem run_eq_error_iff : (s.run c).2 = .error e ↔ Refused s c e := by
  have step := step_run s c
  generalize s.run c = out at step ⊢
  cases step with
  | refused refused =>
    constructor
    · rintro ⟨⟩
      exact refused
    · intro refused'
      cases refused <;> cases refused' <;> rfl
  | add absent =>
    refine iff_of_false nofun fun refused => ?_
    cases refused with
    | add present => exact present.elim absent
  | update present =>
    refine iff_of_false nofun fun refused => ?_
    cases refused with
    | update absent => exact present.elim absent
  | remove present =>
    refine iff_of_false nofun fun refused => ?_
    cases refused with
    | remove absent => exact present.elim absent
  | clear => exact iff_of_false nofun nofun

/-- A command that is refused leaves the store as it was. -/
theorem run_unchanged (h : (s.run c).2 = .error e) : (s.run c).1 = s := by
  have step := step_run s c
  generalize s.run c = out at step h ⊢
  cases step with
  | refused => rfl
  | add | update | remove | clear => cases h

/-- After a command an id stands for what the command put there, or else for what it stood for if
the command spared it. -/
theorem get_run :
    (s.run c).1.get id = .ok p ↔
      Puts (c, (s.run c).2) p ∧ p.id = id ∨ s.get id = .ok p ∧ Spares (c, (s.run c).2) id := by
  have step := step_run s c
  generalize s.run c = out at step ⊢
  cases step with
  | @refused c e refused =>
    have spares (h : s.get id = .ok p) : Spares (c, .error e) id := by
      refine ⟨by simp [Puts], ?_, ?_⟩
      · rintro rfl
        cases refused with
        | remove absent => exact absent p h
      · rintro rfl
        cases refused
    simpa [Puts] using spares
  | add | update => simp [get_put, Puts, Spares]
  | remove => simp [get_erase, Puts, Spares]
  | clear => simp [get_empty, Puts, Spares]

/-- Each policy is kept under its own id. -/
def Keyed (s : PolicyStore) : Prop := ∀ e ∈ s.policies.entries, e.1 = e.2.id

theorem keyed_empty : empty.Keyed := fun _ he => (List.not_mem_nil he).elim

theorem Keyed.put (keyed : s.Keyed) (p : Policy) : (s.put p).Keyed := by
  intro e he
  rcases Entries.mem_insert he with rfl | he
  · rfl
  · exact keyed e he

theorem Keyed.run (keyed : s.Keyed) (c : Command) : (s.run c).1.Keyed := by
  have step := step_run s c
  generalize s.run c = out at step ⊢
  cases step with
  | refused => exact keyed
  | add | update => exact keyed.put _
  | remove => exact fun e he => keyed e (List.mem_filter.mp he).1
  | clear => exact keyed_empty

section
variable (keyed : s.Keyed)
include keyed

theorem Keyed.ids_eq : s.policies.values.map Policy.id = s.policies.entries.map Prod.fst := by
  rw [Dictionary.values, List.map_map]
  exact List.map_congr_left fun e he => (keyed e he).symm

theorem Keyed.increasing : s.policies.values.Pairwise fun p q => p.id < q.id := by
  rw [← List.pairwise_map (f := Policy.id) (R := (· < ·)), keyed.ids_eq, List.pairwise_map]
  exact s.policies.increasing

theorem Keyed.mem_values_iff : p ∈ s.policies.values ↔ s.get p.id = .ok p := by
  rw [get_eq_ok_iff, ← Dictionary.mem_entries_iff, Dictionary.values, List.mem_map]
  constructor
  · rintro ⟨e, he, rfl⟩
    rw [← keyed e he]
    exact he
  · exact fun h => ⟨_, h, rfl⟩

theorem Keyed.eq_of_id (hp : p ∈ s.policies.values) (hq : q ∈ s.policies.values)
    (same : p.id = q.id) : p = q := by
  rw [keyed.mem_values_iff] at hp hq
  rw [same, hq] at hp
  exact (Except.ok.inj hp).symm

/-- In whatever order the policies are looked through, they are listed as they are kept. -/
theorem Keyed.mergeSort_eq {ps : List Policy} (any : ps.Perm s.policies.values) :
    ps.mergeSort (fun p q => p.id ≤ q.id) = s.policies.values := by
  have total (p q : Policy) : (decide (p.id ≤ q.id) || decide (q.id ≤ p.id)) = true := by
    simpa using String.le_total p.id q.id
  have trans (p q r : Policy) (pq : decide (p.id ≤ q.id) = true)
      (qr : decide (q.id ≤ r.id) = true) : decide (p.id ≤ r.id) = true := by
    simp only [decide_eq_true_eq] at *
    exact String.le_trans pq qr
  have kept : s.policies.values.Pairwise fun p q => decide (p.id ≤ q.id) = true :=
    keyed.increasing.imp fun lt => decide_eq_true (Std.le_of_lt lt)
  have perm := (List.mergeSort_perm ps fun p q => p.id ≤ q.id).trans any
  refine List.Perm.eq_of_pairwise ?_ (List.pairwise_mergeSort trans total ps) kept perm
  intro p q hp hq pq qp
  apply keyed.eq_of_id (perm.mem_iff.mp hp) hq
  exact String.le_antisymm (of_decide_eq_true pq) (of_decide_eq_true qp)

theorem Keyed.toList_eq : s.toList = s.policies.values := keyed.mergeSort_eq (.refl _)

end

end

section
variable (cs : List Command)

theorem keyed_after : (empty.after cs).Keyed := by
  induction cs using List.reverseRecOn with
  | nil => exact keyed_empty
  | append_singleton cs c ih =>
    rw [after_concat]
    exact ih.run c

theorem get_after_iff {id : String} {p : Policy} :
    (empty.after cs).get id = .ok p ↔ Stands (empty.events cs) id p := by
  induction cs using List.reverseRecOn with
  | nil => exact iff_of_false get_empty not_stands_nil
  | append_singleton cs c ih => rw [after_concat, events_concat, get_run, stands_concat, ih]

end

/-- What a store shows after some events: a finite map from ids to policies that keeps what was put
last, refuses what does not fit and stays as it is then, and lists its policies by the bytes of
their ids. -/
structure Reflects (s : PolicyStore) (es : List Event) : Prop where
  keyed : ∀ e ∈ s.policies.entries, e.1 = e.2.id
  found : ∀ id p, s.get id = .ok p ↔ Stands es id p
  missing : ∀ id e, s.get id = .error e ↔ e = .notFound id ∧ ∀ p, ¬Stands es id p
  refused : ∀ c e, (s.run c).2 = .error e ↔ Refused s c e
  unchanged : ∀ c e, (s.run c).2 = .error e → (s.run c).1 = s
  increasing : s.toList.Pairwise fun p q => Text.bytes p.id < Text.bytes q.id
  listed : ∀ p, p ∈ s.toList ↔ s.get p.id = .ok p
  anyOrder : ∀ ps : List Policy, ps.Perm s.policies.values →
    ps.mergeSort (fun p q => p.id ≤ q.id) = s.toList
  length : s.toList.length = s.size

theorem after_reflects (cs : List Command) : (empty.after cs).Reflects (empty.events cs) where
  keyed := keyed_after cs
  found _ _ := get_after_iff cs
  missing id e := by simp only [get_eq_error_iff, ne_eq, get_after_iff]
  refused _ _ := run_eq_error_iff
  unchanged _ _ := run_unchanged
  increasing := by
    rw [(keyed_after cs).toList_eq]
    exact (keyed_after cs).increasing.imp Text.bytes_lt_of_lt
  listed p := by rw [(keyed_after cs).toList_eq, (keyed_after cs).mem_values_iff]
  anyOrder ps any := by rw [(keyed_after cs).mergeSort_eq any, (keyed_after cs).toList_eq]
  length := by
    rw [(keyed_after cs).toList_eq]
    exact List.length_map _

end DataAccess.PolicyStore
