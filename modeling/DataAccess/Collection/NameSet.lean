/-!
# Name sets

Finite sets of names, listed in increasing order of code points. The order makes equality of the
lists equality of the sets (`NameSet.ext_mem`).
-/

namespace DataAccess

/-- Inserts a name into an increasing list of names. -/
def insertName (n : String) : List String → List String
  | [] => [n]
  | m :: ms => if n < m then n :: m :: ms else if m = n then m :: ms else m :: insertName n ms

theorem mem_insertName {n x : String} {ms : List String} :
    x ∈ insertName n ms ↔ x = n ∨ x ∈ ms := by
  induction ms with
  | nil => simp [insertName]
  | cons m ms ih =>
    simp only [insertName]
    split
    · simp
    · split
      · rename_i eq
        subst eq
        simp
      · simp only [List.mem_cons, ih]
        exact ⟨fun h => h.elim (fun h => .inr (.inl h)) (fun h => h.imp id .inr),
          fun h => h.elim (fun h => .inr (.inl h)) (fun h => h.imp id .inr)⟩

theorem pairwise_insertName {n : String} {ms : List String} (h : ms.Pairwise (· < ·)) :
    (insertName n ms).Pairwise (· < ·) := by
  induction ms with
  | nil => simp [insertName]
  | cons m ms ih =>
    obtain ⟨hm, hms⟩ := List.pairwise_cons.1 h
    simp only [insertName]
    split
    · rename_i lt
      exact List.pairwise_cons.2 ⟨fun x hx => (List.mem_cons.1 hx).elim
        (fun q => q ▸ lt) (fun q => String.lt_trans lt (hm x q)), h⟩
    · split
      · exact h
      · rename_i nlt ne
        refine List.pairwise_cons.2 ⟨fun x hx => ?_, ih hms⟩
        rcases mem_insertName.1 hx with rfl | hx
        · exact String.not_le.1 fun le => ne (String.le_antisymm (String.not_lt.1 nlt) le)
        · exact hm x hx

theorem eq_of_increasing {as bs : List String} (ha : as.Pairwise (· < ·))
    (hb : bs.Pairwise (· < ·)) (h : ∀ x, x ∈ as ↔ x ∈ bs) : as = bs := by
  induction as generalizing bs with
  | nil =>
    cases bs with
    | nil => rfl
    | cons b bs => exact absurd ((h b).2 List.mem_cons_self) List.not_mem_nil
  | cons a as ih =>
    cases bs with
    | nil => exact absurd ((h a).1 List.mem_cons_self) List.not_mem_nil
    | cons b bs =>
      obtain ⟨ha', has⟩ := List.pairwise_cons.1 ha
      obtain ⟨hb', hbs⟩ := List.pairwise_cons.1 hb
      have eq : a = b := by
        rcases List.mem_cons.1 ((h a).1 List.mem_cons_self) with eq | mb
        · exact eq
        · rcases List.mem_cons.1 ((h b).2 List.mem_cons_self) with eq | ma
          · exact eq.symm
          · exact absurd (String.lt_trans (hb' a mb) (ha' b ma)) (String.lt_irrefl b)
      subst eq
      have tails : as = bs := by
        refine ih has hbs fun x => ⟨fun hx => ?_, fun hx => ?_⟩
        · rcases List.mem_cons.1 ((h x).1 (List.mem_cons_of_mem _ hx)) with rfl | m
          · exact absurd (ha' x hx) (String.lt_irrefl x)
          · exact m
        · rcases List.mem_cons.1 ((h x).2 (List.mem_cons_of_mem _ hx)) with rfl | m
          · exact absurd (hb' x hx) (String.lt_irrefl x)
          · exact m
      rw [tails]

structure NameSet where
  names : List String
  increasing : names.Pairwise (· < ·)
deriving DecidableEq

namespace NameSet

def empty : NameSet := ⟨[], List.Pairwise.nil⟩

instance : EmptyCollection NameSet := ⟨empty⟩

instance : Inhabited NameSet := ⟨empty⟩

instance : Membership String NameSet := ⟨fun s n => n ∈ s.names⟩

instance (n : String) (s : NameSet) : Decidable (n ∈ s) :=
  inferInstanceAs (Decidable (n ∈ s.names))

theorem ext_mem {s t : NameSet} (h : ∀ n, n ∈ s ↔ n ∈ t) : s = t := by
  cases s with
  | mk ns hn =>
    cases t with
    | mk ms hm =>
      have eq := eq_of_increasing hn hm h
      subst eq
      rfl

theorem mem_def {n : String} {s : NameSet} : n ∈ s ↔ n ∈ s.names := Iff.rfl

def insert (s : NameSet) (n : String) : NameSet :=
  ⟨insertName n s.names, pairwise_insertName s.increasing⟩

@[simp] theorem mem_insert {s : NameSet} {n x : String} : x ∈ s.insert n ↔ x = n ∨ x ∈ s :=
  mem_insertName

/-- Adds every name of a list. -/
def addAll (s : NameSet) (ns : List String) : NameSet := ns.foldl insert s

@[simp] theorem mem_addAll {s : NameSet} {ns : List String} {x : String} :
    x ∈ s.addAll ns ↔ x ∈ s ∨ x ∈ ns := by
  induction ns generalizing s with
  | nil => simp [addAll]
  | cons n ns ih =>
    have h : x ∈ s.addAll (n :: ns) ↔ x ∈ (s.insert n).addAll ns := Iff.rfl
    rw [h, ih, mem_insert, List.mem_cons]
    exact ⟨fun h => h.elim (fun h => h.elim (.inr ∘ .inl) .inl) (.inr ∘ .inr),
      fun h => h.elim (.inl ∘ .inr) (fun h => h.elim (.inl ∘ .inl) .inr)⟩

def ofList (ns : List String) : NameSet := empty.addAll ns

def union (s t : NameSet) : NameSet := s.addAll t.names

@[simp] theorem mem_union {s t : NameSet} {x : String} : x ∈ s.union t ↔ x ∈ s ∨ x ∈ t :=
  mem_addAll

def diff (s t : NameSet) : NameSet :=
  ⟨s.names.filter (· ∉ t), s.increasing.filter _⟩

@[simp] theorem mem_diff {s t : NameSet} {x : String} : x ∈ s.diff t ↔ x ∈ s ∧ x ∉ t := by
  simp [diff, mem_def]

def inter (s t : NameSet) : NameSet :=
  ⟨s.names.filter (· ∈ t), s.increasing.filter _⟩

@[simp] theorem mem_inter {s t : NameSet} {x : String} : x ∈ s.inter t ↔ x ∈ s ∧ x ∈ t := by
  simp [inter, mem_def]

def isEmpty (s : NameSet) : Bool := s.names.isEmpty

def size (s : NameSet) : Nat := s.names.length

theorem isEmpty_iff {s : NameSet} : s.isEmpty ↔ ∀ n, n ∉ s := by
  simp [isEmpty, mem_def, List.eq_nil_iff_forall_not_mem]

@[simp] theorem not_mem_empty (n : String) : n ∉ (∅ : NameSet) := List.not_mem_nil

theorem eq_empty_iff {s : NameSet} : s = ∅ ↔ ∀ n, n ∉ s := by
  constructor
  · rintro rfl
    exact not_mem_empty
  · intro h
    apply ext_mem
    simpa using h

end NameSet

end DataAccess
