import DataAccess.Collection.Entries

/-!
# Dictionaries

Finite maps from texts. Their entries stay in increasing order of the keys, the order in which
they are written.
-/

namespace DataAccess

structure Dictionary (α : Type u) where
  entries : Entries α
  increasing : entries.Increasing

namespace Dictionary

variable {α : Type u}

def empty : Dictionary α := ⟨[], List.Pairwise.nil⟩

instance : EmptyCollection (Dictionary α) := ⟨empty⟩

instance : Inhabited (Dictionary α) := ⟨empty⟩

instance [BEq α] : BEq (Dictionary α) := ⟨fun a b => a.entries == b.entries⟩

def get? (d : Dictionary α) (k : String) : Option α := d.entries.get? k

def insert (d : Dictionary α) (k : String) (v : α) : Dictionary α :=
  ⟨d.entries.insert k v, d.increasing.insert k v⟩

def ofList (ps : List (String × α)) : Dictionary α :=
  ⟨Entries.ofList ps, Entries.increasing_ofList ps⟩

def erase (d : Dictionary α) (k : String) : Dictionary α :=
  ⟨d.entries.filter (·.1 ≠ k), d.increasing.filter _⟩

def values (d : Dictionary α) : List α := d.entries.map Prod.snd

def size (d : Dictionary α) : Nat := d.entries.length

@[simp] theorem get?_insert (d : Dictionary α) (k k' : String) (v : α) :
    (d.insert k v).get? k' = if k = k' then some v else d.get? k' :=
  Entries.get?_insert k k' v d.entries

@[simp] theorem get?_erase (d : Dictionary α) (k k' : String) :
    (d.erase k).get? k' = if k = k' then none else d.get? k' :=
  Entries.get?_filter_ne k k' d.entries

theorem mem_entries_iff {d : Dictionary α} {k : String} {v : α} :
    (k, v) ∈ d.entries ↔ d.get? k = some v :=
  ⟨d.increasing.get?_of_mem, Entries.mem_of_get?⟩

end Dictionary

end DataAccess
