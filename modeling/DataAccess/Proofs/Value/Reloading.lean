import DataAccess.Proofs.Calendar.Text
import DataAccess.Proofs.Text.Trim
import DataAccess.Proofs.Value.Storage
import DataAccess.Template.Basic

/-!
# Values that were stored

What JSON makes of a value without constants, maps and infinite floats: its temporal values come
back as their texts, and all else as it was (`ofDocument?_toDocument`). The text of a temporal
value is no placeholder.
-/

namespace DataAccess

namespace Value

/-- Values with a constant in them, at whatever depth. -/
inductive HasConstant : Value → Prop
  | here (name) : HasConstant (.enum name)
  | item {v vs} : v ∈ vs → HasConstant v → HasConstant (.array vs)
  | entry {e es} : e ∈ es → HasConstant e.2 → HasConstant (.map es)

/-- Values that JSON changes in their temporal values only. -/
inductive Storable : Value → Prop
  | null : Storable .null
  | bool (b) : Storable (.bool b)
  | int (n) : Storable (.int n)
  | float {x : Float} (finite : x.isFinite) : Storable (.float x)
  | text (s) : Storable (.text s)
  | temporal (t) : Storable (.temporal t)
  | array {vs} (items : ∀ v ∈ vs, Storable v) : Storable (.array vs)

mutual

/-- The value with all temporal values outside maps as texts. -/
def reloaded : Value → Value
  | temporal t => text t.text
  | array vs => array (reloadedItems vs)
  | v => v

def reloadedItems : List Value → List Value
  | [] => []
  | v :: vs => v.reloaded :: reloadedItems vs

end

theorem reloadedItems_eq_map (vs : List Value) : reloadedItems vs = vs.map reloaded := by
  induction vs with
  | nil => rfl
  | cons v vs ih => rw [reloadedItems, ih, List.map_cons]

theorem ofDocument?_toDocument {δ : Dialect} {v : Value} (h : v.Storable) :
    ofDocument? δ v.toDocument = some v.reloaded := by
  induction h with
  | null | bool | text | temporal => rfl
  | int n => exact congrArg some (ofInt_toInt n)
  | float finite =>
    rw [toDocument, if_pos finite]
    rfl
  | array _ ih =>
    rw [toDocument, ofDocument?, toItems_eq_map, ofItems?_map_iff.mpr ih, Option.map_some, reloaded,
      reloadedItems_eq_map]

/-- A value beside what it may be after it was stored: itself, or with its temporal values as
texts. -/
inductive Reloads : Value → Value → Prop
  | same (v) : Reloads v v
  | stored (v) : Reloads v v.reloaded

namespace Reloads

variable {v w : Value}

theorem isNumber_eq (h : v.Reloads w) : w.isNumber = v.isNumber := by
  cases h with
  | same => rfl
  | stored => cases v <;> rfl

theorem isTextOrTemporal_eq (h : v.Reloads w) : w.isTextOrTemporal = v.isTextOrTemporal := by
  cases h with
  | same => rfl
  | stored => cases v <;> rfl

theorem eq_of_text {s : String} (h : (text s).Reloads w) : w = text s := by
  cases h with
  | same => rfl
  | stored => rfl

end Reloads

end Value

/-- The text of a temporal value has no dollar sign, so it is no placeholder. -/
theorem Template.soleName?_text (t : Temporal) : soleName? t.text = none := by
  have absent : '$' ∉ Text.strip t.text.toList := by
    intro dollar
    rw [Temporal.toList_text] at dollar
    rcases Temporal.isTextChar_of_mem_chars (Text.mem_of_mem_strip dollar) with digit | sign
    · cases digit
    · exact absurd sign (by decide)
  unfold soleName?
  split
  · rename_i rest eq
    rw [eq] at absent
    exact absurd List.mem_cons_self absent
  · rfl

end DataAccess
