import DataAccess.Document.Schema
import DataAccess.Proofs.Success

/-!
# Reading typed data back

What is written with an encoder for its parts is read back when each part is.
-/

namespace DataAccess

theorem NameSet.ofList_names (s : NameSet) : ofList s.names = s := by
  apply ext_mem
  intro n
  rw [ofList, mem_addAll, mem_def (s := s)]
  exact or_iff_right (not_mem_empty n)

namespace Document

variable {δ : Dialect} {α β : Type} {f : Decoder β} {g : α → Document} {h : α → β}

theorem list?_map {as : List α} (read : ∀ a ∈ as, f δ (g a) = some (h a)) :
    list? f δ (list (as.map g)) = some (as.map h) := by
  rw [list?, mapM_eq_some_iff, List.forall₂_map_left_iff, List.forall₂_map_right_iff,
    List.forall₂_same]
  exact read

/-- Null stands for what is absent, so that it must not stand for anything that is present. -/
theorem option?_optional_map (present : ∀ a, g a ≠ null) (read : ∀ a, f δ (g a) = some (h a))
    (o : Option α) : option? f δ (optional g o) = some (o.map h) := by
  cases o with
  | none => rfl
  | some a =>
    rw [optional, option?, read]
    · rfl
    · exact present a

theorem option?_optional {f : Decoder α} (present : ∀ a, g a ≠ null)
    (read : ∀ a, f δ (g a) = some a) (o : Option α) : option? f δ (optional g o) = some o := by
  rw [option?_optional_map present read, Option.map_id']

/-- A table with just the fields of a structure. -/
theorem fields?_table {names : List String} {fs : List (String × Document)}
    (distinct : names.Nodup) (keys : fs.map Prod.fst = names) :
    fields? names δ (table fs) = some fs := by
  have known : fs.filter (·.1 ∈ names) = fs := by
    rw [List.filter_eq_self]
    intro e he
    rw [← keys]
    exact decide_eq_true (List.mem_map_of_mem he)
  rw [fields?, known, keys]
  exact if_pos distinct

theorem int32?_toInt (n : Int32) : int32? δ (.int n.toInt) = some n := by
  have low := n.le_toInt
  have high := n.toInt_lt
  rw [int32?, int?, if_pos ⟨by omega, by omega⟩, Option.map_some, Int32.ofInt_toInt]

theorem nameSet?_names (s : NameSet) : nameSet? δ (names s) = some s := by
  have texts : list? text? δ (list (s.names.map text)) = some (s.names.map id) :=
    list?_map fun _ _ => rfl
  rw [nameSet?, names, texts, List.map_id, Option.map_some, NameSet.ofList_names]

end Document

end DataAccess
