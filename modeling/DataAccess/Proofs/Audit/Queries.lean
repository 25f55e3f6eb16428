import DataAccess.Proofs.Audit.Isolation
import DataAccess.Proofs.Sorting

/-!
# Queries

A query looks through all histories in some order and shows what it finds by time. It shows the
same as a choice from all records, in the same order (`filtered_eq`), and the records of a history
that is in order of time stay as they are. Both are consequences of the sorting being stable
(`queries_consistent`).
-/

namespace DataAccess.Audit.Trail

theorem earlier_trans (r s u : Record) (rs : decide (r.time ≤ s.time) = true)
    (su : decide (s.time ≤ u.time) = true) : decide (r.time ≤ u.time) = true := by
  simp only [decide_eq_true_eq] at *
  exact Instant.le_trans rs su

theorem earlier_total (r s : Record) :
    (decide (r.time ≤ s.time) || decide (s.time ≤ r.time)) = true := by
  simpa using Instant.le_total r.time s.time

section
variable (t : Trail)

/-- A query chooses from all records and leaves them in order. -/
theorem filtered_eq (p : Record → Bool) : t.filtered p = t.all.filter p := by
  rw [all_eq, filter_mergeSort earlier_trans earlier_total, List.filter_flatMap]
  rfl

theorem all_sorted : t.all.Pairwise fun r s => r.time ≤ s.time := by
  rw [all_eq]
  apply (List.pairwise_mergeSort earlier_trans earlier_total _).imp
  exact of_decide_eq_true

theorem sublist_all {rs : List Record} (sub : rs.Sublist (t.histories.flatMap History.records))
    (sorted : rs.Pairwise fun r s => r.time ≤ s.time) : rs.Sublist t.all := by
  rw [all_eq]
  exact List.sublist_mergeSort earlier_trans earlier_total (sorted.imp decide_eq_true) sub

end

section
variable {t : Trail} {h : History}

theorem records_sublist (hh : h ∈ t.histories) :
    h.records.Sublist (t.histories.flatMap History.records) := by
  rw [List.flatMap_def]
  exact List.sublist_flatten_of_mem (List.mem_map_of_mem hh)

theorem filter_key (hh : h ∈ t.histories) : t.histories.filter (·.key = h.key) = [h] := by
  have same : t.histories.filter (·.key = h.key) = t.histories.filter (· = h) := by
    apply List.filter_congr
    intro g hg
    apply decide_eq_decide.mpr
    exact ⟨List.inj_on_of_nodup_map t.distinct hg hh, congrArg History.key⟩
  rw [same, List.filter_eq, List.count_eq_one_of_mem (t.distinct.of_map _) hh]
  rfl

/-- The records with the key of a history are those of the history, sorted. -/
theorem all_filter_key (filed : t.Filed) (hh : h ∈ t.histories) :
    t.all.filter (subjectKey ·.subject = h.key) =
      h.records.mergeSort fun r s => r.time ≤ s.time := by
  calc
    t.all.filter (subjectKey ·.subject = h.key)
      = ((t.histories.flatMap History.records).filter (subjectKey ·.subject = h.key)).mergeSort
          fun r s => r.time ≤ s.time := by
        rw [all_eq, filter_mergeSort earlier_trans earlier_total]
    _ = ((t.histories.filter (·.key = h.key)).flatMap History.records).mergeSort
          fun r s => r.time ≤ s.time := by rw [flatMap_records_filter (· = h.key) filed]
    _ = h.records.mergeSort fun r s => r.time ≤ s.time := by
        rw [filter_key hh, List.flatMap_singleton]

end

/-- What queries show of a trail: all of it by time, with the records of a history in turn where
their times allow it, and the choices from that by verdict and by policy. -/
structure Consistent (t : Trail) : Prop where
  sorted : t.all.Pairwise fun r s => r.time ≤ s.time
  complete : t.all.Perm (t.histories.flatMap History.records)
  inTurn : ∀ h ∈ t.histories, ∀ rs : List Record, rs.Sublist h.records →
    rs.Pairwise (fun r s => r.time ≤ s.time) → rs.Sublist t.all
  history : ∀ h ∈ t.histories, h.records.Pairwise (fun r s => r.time ≤ s.time) →
    t.all.filter (subjectKey ·.subject = h.key) = h.records
  byVerdict : ∀ v, t.byVerdict v = t.all.filter (·.verdict = v)
  byPolicy : ∀ policy,
    t.byPolicy policy = t.all.filter fun r => policy ∈ r.allowIds ∨ policy ∈ r.denyIds

/-- However a trail has come about, and in whatever order its histories are looked through, queries
are consistent. -/
theorem queries_consistent {es : List Event} {t : Trail} (reached : Reached es t) :
    Consistent t where
  sorted := t.all_sorted
  complete := t.all_perm
  inTurn h hh rs sub sorted :=
    t.sublist_all (sub.trans (records_sublist hh)) sorted
  history h hh sorted := by
    rw [all_filter_key reached.filed hh]
    exact List.mergeSort_of_pairwise (sorted.imp decide_eq_true)
  byVerdict v := t.filtered_eq _
  byPolicy policy := by
    rw [byPolicy, filtered_eq]
    simp [Record.involves]

/-- What a subject does after another, at the same time as what it did before. -/
def revisit : Record := { visit "u-1" with verdict := .deny, reason := "no", denyIds := ["d"] }

/-- Decisions on two subjects in turn, all made at one time. -/
def interleaved : List Command := [visit "u-1", visit "u-2", revisit].map (.record {})

theorem queries_consistent_interleaved :
    (∃ es, Reached es (run interleaved)) ∧ Consistent (run interleaved) ∧
      (run interleaved).all.filter (subjectKey ·.subject = "u-1") = [visit "u-1", revisit] := by
  obtain ⟨es, reached, -⟩ := reached_run interleaved
  have consistent := queries_consistent reached
  refine ⟨⟨es, reached⟩, consistent, ?_⟩
  exact consistent.history ⟨"u-1", [visit "u-1", revisit]⟩ (by decide) (by decide)

end DataAccess.Audit.Trail
