import DataAccess.Collection.Entries

/-!
# Documents

What a JSON or TOML text holds. Tables keep the order and the repetitions of the text, so that a
reader can tell them; `Document.generic?` is the view without them.
-/

namespace DataAccess

inductive Document where
  | null
  | bool (b : Bool)
  | int (n : Int)
  | float (x : Float)
  | text (s : String)
  | list (items : List Document)
  | table (fields : List (String × Document))
  /-- A well-formed part that stands for no value, such as a number beyond the range. It does no
  harm where it is passed over. -/
  | fault
deriving Inhabited

namespace Document

mutual

/-- The document with the keys of every table in order and only the last value of each key;
nothing if any part stands for no value. -/
def generic? : Document → Option Document
  | fault => none
  | list items => (genericItems? items).map list
  | table fields => (genericFields? fields).map fun fs => table (Entries.ofList fs)
  | d => some d

def genericItems? : List Document → Option (List Document)
  | [] => some []
  | d :: ds => do return (← generic? d) :: (← genericItems? ds)

def genericFields? : List (String × Document) → Option (List (String × Document))
  | [] => some []
  | (k, d) :: fs => do return (k, ← generic? d) :: (← genericFields? fs)

end

def optional (f : α → Document) : Option α → Document
  | none => null
  | some a => f a

/-- A number as a reader hands it out: an integer with 64 bits unsigned unless it is negative, a
negative one with 64 bits signed, and any other number as a float. -/
inductive Number where
  | natural (n : UInt64)
  | negative (n : Int64)
  | float (x : Float)

namespace Number

def ofInt (n : Int) : Number :=
  if n < 0 then
    if -0x8000000000000000 ≤ n then negative (.ofInt n) else float (Float.ofInt n)
  else if n < UInt64.size then natural (.ofNat n.toNat) else float (Float.ofInt n)

/-- The number as an integer with 64 bits signed, if it is one. -/
def int64? : Number → Option Int64
  | natural n => if n.toNat < 0x8000000000000000 then some (.ofNat n.toNat) else none
  | negative n => some n
  | float _ => none

/-- The number as a float, which every number has. -/
def float? : Number → Option Float
  | natural n => some n.toFloat
  | negative n => some n.toFloat
  | float x => some x

end Number

end Document

end DataAccess
