import DataAccess.Calendar.Reader
import DataAccess.Collection.Dictionary
import DataAccess.Document.Schema
import DataAccess.Value.Basic

/-!
# Values in documents

Values are written without their kinds: a constant as its name, a temporal value as its text.
Reading makes temporal values only of a table that consists of the date-time key. The generic
reading of a document knows no such key.
-/

namespace DataAccess.Value

/-- The key under which a TOML reader hands out its dates and times. -/
def dateTimeKey : String := "$__toml_private_datetime"

/-- The value of a number by its kind. Integers beyond 64 bits signed keep their size as a float. -/
def ofVisited : Document.Number → Value
  | .natural n => if fits n.toNat then int (.ofNat n.toNat) else float n.toFloat
  | .negative n => int n
  | .float x => float x

/-- The value of an integer of a document. -/
def ofInt (n : Int) : Value := ofVisited (.ofInt n)

/-- The value of a number by what it can be had as, an integer before a float. -/
def ofNumber (n : Document.Number) : Value :=
  match n.int64? with
  | some i => int i
  | none => (n.float?.map float).getD null

/-- Both ways of taking in a number come to the same. -/
theorem ofNumber_eq_ofVisited (n : Document.Number) : ofNumber n = ofVisited n := by
  cases n with
  | negative n => rfl
  | float x => rfl
  | natural n =>
    have range : fits n.toNat = true ↔ n.toNat < 0x8000000000000000 := by
      simp only [fits, Bool.and_eq_true, decide_eq_true_eq]
      omega
    rw [ofNumber, ofVisited, Document.Number.int64?]
    by_cases small : n.toNat < 0x8000000000000000
    · rw [if_pos small, if_pos (range.mpr small)]
    · rw [if_neg small, if_neg (mt range.mp small)]
      rfl

mutual

def toDocument : Value → Document
  | null => .null
  | bool b => .bool b
  | int n => .int n.toInt
  | float x => if x.isFinite then .float x else .null
  | text s => .text s
  | enum name => .text name
  | temporal t => .text t.text
  | array vs => .list (toItems vs)
  | map es => .table (toFields es)

def toItems : List Value → List Document
  | [] => []
  | v :: vs => toDocument v :: toItems vs

def toFields : List (String × Value) → List (String × Document)
  | [] => []
  | (k, v) :: es => (k, toDocument v) :: toFields es

end

/-- The temporal value that a table stands for when its first key is the date-time key. -/
def ofDateTime? (δ : Dialect) (d : Document) (others : List (String × Document)) : Option Value :=
  match d with
  | .text s => if others.isEmpty ∨ δ = .toml then (Temporal.parse? s).map temporal else none
  | _ => none

mutual

def ofDocument? (δ : Dialect) : Document → Option Value
  | .null => some null
  | .bool b => some (bool b)
  | .int n => some (ofInt n)
  | .float x => some (ofVisited (.float x))
  | .text s => some (text s)
  | .list ds => (ofItems? δ ds).map array
  | .table [] => some (map [])
  | .table ((k, d) :: fs) =>
    if k = dateTimeKey then ofDateTime? δ d fs
    else do
      let v ← ofDocument? δ d
      let es ← ofFields? δ fs
      return map (Entries.ofList ((k, v) :: es))
  | .fault => none

def ofItems? (δ : Dialect) : List Document → Option (List Value)
  | [] => some []
  | d :: ds => do return (← ofDocument? δ d) :: (← ofItems? δ ds)

def ofFields? (δ : Dialect) : List (String × Document) → Option (List (String × Value))
  | [] => some []
  | (k, d) :: fs => do return (k, ← ofDocument? δ d) :: (← ofFields? δ fs)

end

mutual

/-- The value of a document in which every table is a map. -/
def ofGeneric : Document → Value
  | .null => null
  | .bool b => bool b
  | .int n => ofNumber (.ofInt n)
  | .float x => ofNumber (.float x)
  | .text s => text s
  | .list ds => array (ofGenericItems ds)
  | .table fs => map (Entries.ofList (ofGenericFields fs))
  | .fault => null

def ofGenericItems : List Document → List Value
  | [] => []
  | d :: ds => ofGeneric d :: ofGenericItems ds

def ofGenericFields : List (String × Document) → List (String × Value)
  | [] => []
  | (k, d) :: fs => (k, ofGeneric d) :: ofGenericFields fs

end

/-- A table of named values. -/
def dictionary? : Decoder (Dictionary Value)
  | δ, .table fs => (ofFields? δ fs).map .ofList
  | _, _ => none

def dictionaryDocument (d : Dictionary Value) : Document := .table (toFields d.entries)

end DataAccess.Value
