import DataAccess.Document.Basic
import DataAccess.Collection.NameSet

/-!
# Reading typed data from documents

A structure is a table, in which unknown fields are passed over and a known field stands once, or
a list of its fields in their order, of which those with defaults may be missing at the end. JSON
and TOML differ in two points: in TOML a list may be longer than the structure, and a name that is
given as a table with one field has an empty list or table in it where JSON has null.
-/

namespace DataAccess

inductive Dialect where
  | json
  | toml
deriving DecidableEq

abbrev Decoder (α : Type) := Dialect → Document → Option α

namespace Document

def text? : Decoder String
  | _, text s => some s
  | _, _ => none

def bool? : Decoder Bool
  | _, bool b => some b
  | _, _ => none

def int? (low high : Int) : Decoder Int
  | _, int n => if low ≤ n ∧ n ≤ high then some n else none
  | _, _ => none

def int32? : Decoder Int32 := fun δ d => (int? (-0x80000000) 0x7fffffff δ d).map .ofInt

def nat? : Decoder Nat := fun δ d => (int? 0 0xffffffffffffffff δ d).map Int.toNat

def option? (f : Decoder α) : Decoder (Option α)
  | _, null => some none
  | δ, d => (f δ d).map some

def list? (f : Decoder α) : Decoder (List α)
  | δ, list ds => ds.mapM (f δ)
  | _, _ => none

def nameSet? : Decoder NameSet := fun δ d => (list? text? δ d).map .ofList

def names (s : NameSet) : Document := list (s.names.map text)

/-- Whether a document stands for a name without content. -/
def isUnit : Dialect → Document → Bool
  | .json, null => true
  | .toml, list [] => true
  | .toml, table [] => true
  | _, _ => false

/-- A name out of a fixed choice: a text, or a table with one field of that name. -/
def name? (choice : String → Option α) : Decoder α
  | _, text s => choice s
  | δ, table [(k, d)] => if isUnit δ d then choice k else none
  | _, _ => none

/-- The fields of a structure that are given, by name. -/
def fields? (names : List String) : Decoder (Entries Document)
  | _, table fs =>
    let known := fs.filter (·.1 ∈ names)
    if (known.map Prod.fst).Nodup then some known else none
  | δ, list ds => if ds.length ≤ names.length ∨ δ = .toml then some (names.zip ds) else none
  | _, _ => none

end Document

/-- A field that has to be given. -/
def required (δ : Dialect) (fs : Entries Document) (name : String) (f : Decoder α) : Option α :=
  (fs.get? name).bind (f δ)

/-- A field with a default. -/
def defaulted (δ : Dialect) (fs : Entries Document) (name : String) (default : α)
    (f : Decoder α) : Option α :=
  match fs.get? name with
  | none => some default
  | some d => f δ d

/-- A field that may be null or missing. -/
def nullable (δ : Dialect) (fs : Entries Document) (name : String) (f : Decoder α) :
    Option (Option α) :=
  defaulted δ fs name none (Document.option? f)

end DataAccess
