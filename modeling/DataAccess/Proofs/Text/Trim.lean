import DataAccess.Text.Blank
import Mathlib.Data.List.DropRight

/-!
# Trimming

Nothing is left to trim after trimming, and what is left is empty for blank texts only.
-/

namespace DataAccess.Text

theorem strip_eq_rdropWhile (cs : List Char) :
    strip cs = (cs.dropWhile isBlank).rdropWhile isBlank := rfl

theorem mem_of_mem_strip {cs : List Char} {c : Char} (h : c ∈ strip cs) : c ∈ cs := by
  rw [strip_eq_rdropWhile] at h
  exact (List.dropWhile_sublist _).subset ((List.rdropWhile_prefix _ _).subset h)

theorem strip_eq_nil_iff {cs : List Char} : strip cs = [] ↔ ∀ c ∈ cs, isBlank c := by
  rw [strip_eq_rdropWhile, List.rdropWhile_eq_nil_iff]
  constructor
  · intro h c hc
    rw [← List.takeWhile_append_dropWhile (p := isBlank) (l := cs), List.mem_append] at hc
    exact hc.elim List.mem_takeWhile_imp (h c)
  · exact fun h c hc => h c ((List.dropWhile_sublist _).subset hc)

theorem dropBlank_strip (cs : List Char) : dropBlank (strip cs) = strip cs := by
  rw [strip_eq_rdropWhile, dropBlank, List.dropWhile_eq_self_iff]
  intro pos
  have sub := List.rdropWhile_prefix isBlank (cs.dropWhile isBlank)
  have pos' := Nat.lt_of_lt_of_le pos sub.length_le
  rw [sub.getElem pos]
  exact List.dropWhile_get_zero_not isBlank cs pos'

theorem strip_strip (cs : List Char) : strip (strip cs) = strip cs := by
  calc
    strip (strip cs) = (dropBlank (strip cs)).rdropWhile isBlank := rfl
    _ = (strip cs).rdropWhile isBlank := by rw [dropBlank_strip]
    _ = strip cs := List.rdropWhile_idempotent isBlank _

theorem strip_eq_self {cs : List Char} (h : ∀ c ∈ cs, isBlank c = false) : strip cs = cs := by
  have start : cs.dropWhile isBlank = cs :=
    List.dropWhile_eq_self_iff.2 fun pos => by simp [h _ (List.getElem_mem pos)]
  rw [strip_eq_rdropWhile, start, List.rdropWhile_eq_self_iff]
  intro nonempty
  simp [h _ (List.getLast_mem nonempty)]

@[simp] theorem trim_trim (s : String) : trim (trim s) = trim s := by
  rw [trim, toList_trim, strip_strip, ← toList_trim, String.ofList_toList]

theorem trim_eq_empty_iff {s : String} : trim s = "" ↔ isBlankText s = true := by
  rw [← String.toList_inj, toList_trim, isBlankText, List.all_eq_true]
  exact strip_eq_nil_iff

end DataAccess.Text
