import DataAccess.Audit.Record

/-!
# Audit trails

A history of decisions for each subject, each with the oldest record first. Both the length of a
history and the number of subjects are bounded; a new subject takes the place of the one that has
been idle the longest.
-/

namespace DataAccess.Audit

structure Limits where
  perSubject : Nat := 1000
  subjects : Nat := 10000
deriving DecidableEq

/-- At least one subject is always kept. -/
def Limits.withSubjects (l : Limits) (n : Nat) : Limits := { l with subjects := max n 1 }

/-- The key of a history. Requests without a subject share one. -/
def subjectKey (subject : Option String) : String := subject.getD "<anonymous>"

structure History where
  key : String
  records : List Record
deriving DecidableEq

/-- The time of the latest record, if there is one. -/
def History.latest? (h : History) : Option Instant := h.records.getLast?.map Record.time

/-- Whether a history has been idle at least as long as another. One without records has been idle
for ever. -/
def History.isIdler (h g : History) : Bool :=
  match h.latest?, g.latest? with
  | none, _ => true
  | some _, none => false
  | some s, some t => decide (s ≤ t)

/-- Histories with different keys, in no order that matters. -/
structure Trail where
  histories : List History
  distinct : (histories.map History.key).Nodup

namespace Trail

def empty : Trail := ⟨[], List.nodup_nil⟩

def subjectCount (t : Trail) : Nat := t.histories.length

/-- The records under a key. -/
def records (t : Trail) (key : String) : List Record :=
  match t.histories.find? (·.key = key) with
  | some h => h.records
  | none => []

def tracks (t : Trail) (key : String) : Bool := t.histories.any (·.key = key)

def erase (t : Trail) (key : String) : Trail :=
  ⟨t.histories.filter (·.key ≠ key), t.distinct.sublist (List.filter_sublist.map _)⟩

/-- The last records of a list, up to a number of them. -/
def lastRecords (n : Nat) (rs : List Record) : List Record := rs.drop (rs.length - n)

/-- Puts a history in the place of the one with its key, or at the end. -/
def replace (h : History) : List History → List History
  | [] => [h]
  | g :: gs => if g.key = h.key then h :: gs else g :: replace h gs

theorem mem_replace {h g : History} {hs : List History} (mem : g ∈ replace h hs) :
    g = h ∨ g ∈ hs := by
  induction hs with
  | nil => simpa [replace] using mem
  | cons d ds ih =>
    rw [replace] at mem
    split at mem
    · exact (List.mem_cons.1 mem).imp_right (List.mem_cons_of_mem _)
    · rcases List.mem_cons.1 mem with rfl | mem
      · exact .inr List.mem_cons_self
      · exact (ih mem).imp_right (List.mem_cons_of_mem _)

theorem mem_keys_replace {h : History} {hs : List History} {key : String}
    (mem : key ∈ (replace h hs).map History.key) : key = h.key ∨ key ∈ hs.map History.key := by
  obtain ⟨g, hg, rfl⟩ := List.mem_map.1 mem
  exact (mem_replace hg).imp (congrArg _) (List.mem_map_of_mem)

theorem nodup_replace {h : History} {hs : List History} (d : (hs.map History.key).Nodup) :
    ((replace h hs).map History.key).Nodup := by
  induction hs with
  | nil => simp [replace]
  | cons g gs ih =>
    obtain ⟨hg, hgs⟩ := List.nodup_cons.1 d
    simp only [replace]
    split
    · rename_i eq
      exact List.nodup_cons.2 ⟨eq ▸ hg, hgs⟩
    · rename_i ne
      exact List.nodup_cons.2 ⟨fun mem => (mem_keys_replace mem).elim ne hg, ih hgs⟩

def append (perSubject : Nat) (t : Trail) (r : Record) : Trail :=
  let key := subjectKey r.subject
  ⟨replace ⟨key, lastRecords perSubject (t.records key ++ [r])⟩ t.histories,
    nodup_replace t.distinct⟩

/-- The first of the histories that have been idle the longest. -/
def idlest? : List History → Option History
  | [] => none
  | h :: hs =>
    match idlest? hs with
    | none => some h
    | some g => if h.isIdler g then some h else some g

/-- Evicts idle subjects, a number of times at most, until there is room for another. -/
def makeRoom (subjects : Nat) : Nat → Trail → Trail
  | 0, t => t
  | k + 1, t =>
    if t.subjectCount < subjects then t
    else match idlest? t.histories with
      | none => t
      | some h => makeRoom subjects k (t.erase h.key)

/-- A subject that is not tracked yet may cost others their histories. -/
def record (l : Limits) (t : Trail) (r : Record) : Trail :=
  if t.tracks (subjectKey r.subject) then append l.perSubject t r
  else append l.perSubject (makeRoom l.subjects t.subjectCount t) r

def recordsFor (t : Trail) (subject : Option String) : List Record := t.records (subjectKey subject)

def clear (t : Trail) (subject : Option String) : Trail := t.erase (subjectKey subject)

/-- The records with a property, from the oldest to the latest. -/
def filtered (property : Record → Bool) (t : Trail) : List Record :=
  (t.histories.flatMap fun h => h.records.filter property).mergeSort fun r s => r.time ≤ s.time

def all (t : Trail) : List Record := t.filtered fun _ => true

def byVerdict (t : Trail) (v : Verdict) : List Record := t.filtered (·.verdict = v)

def byPolicy (t : Trail) (policy : String) : List Record := t.filtered (·.involves policy)

end Trail

end DataAccess.Audit
