import DataAccess.Calendar.Temporal
import DataAccess.Collection.Entries

/-!
# Values

The values of attributes, of the request environment and of predicate operands. Every integer has
64 bits; a wider one is accepted only where it fits.
-/

namespace DataAccess

inductive Value where
  | null
  | bool (b : Bool)
  | int (n : Int64)
  | float (x : Float)
  | text (s : String)
  /-- A symbolic constant, known by its name. -/
  | enum (name : String)
  | temporal (t : Temporal)
  | array (items : List Value)
  /-- Entries in increasing order of their keys. -/
  | map (entries : List (String × Value))
deriving Inhabited

namespace Value

inductive Kind where
  | null
  | boolean
  | integer
  | float
  | string
  | enum
  | temporal
  | array
  | map
deriving DecidableEq

def Kind.name : Kind → String
  | null => "null"
  | boolean => "boolean"
  | integer => "integer"
  | float => "float"
  | string => "string"
  | enum => "enum"
  | temporal => "temporal"
  | array => "array"
  | map => "map"

def kind : Value → Kind
  | null => .null
  | bool _ => .boolean
  | int _ => .integer
  | float _ => .float
  | text _ => .string
  | enum _ => .enum
  | temporal _ => .temporal
  | array _ => .array
  | map _ => .map

/-- The name of the kind; diagnostics show it in place of the value. -/
def typeName (v : Value) : String := v.kind.name

def isNull (v : Value) : Bool := v.kind = .null

def isNumber (v : Value) : Bool := v.kind = .integer || v.kind = .float

def isTextOrTemporal (v : Value) : Bool := v.kind = .string || v.kind = .temporal

def isArray (v : Value) : Bool := v.kind = .array

def isMap (v : Value) : Bool := v.kind = .map

def asBool? : Value → Option Bool
  | bool b => some b
  | _ => none

def asInt? : Value → Option Int64
  | int n => some n
  | _ => none

def asFloat? : Value → Option Float
  | float x => some x
  | int n => some n.toFloat
  | _ => none

def asText? : Value → Option String
  | text s => some s
  | _ => none

def asArray? : Value → Option (List Value)
  | array vs => some vs
  | _ => none

def asMap? : Value → Option (Entries Value)
  | map es => some es
  | _ => none

/-- The value of a map under a key. -/
def get? (v : Value) (k : String) : Option Value := v.asMap?.bind (Entries.get? k)

mutual

/-- Equality with numbers compared as numbers: a NaN differs from itself, the zeros agree. -/
def beq : Value → Value → Bool
  | null, null => true
  | bool a, bool b => a == b
  | int a, int b => a == b
  | float a, float b => a == b
  | text a, text b => a == b
  | enum a, enum b => a == b
  | temporal a, temporal b => a == b
  | array as, array bs => beqItems as bs
  | map as, map bs => beqEntries as bs
  | _, _ => false

def beqItems : List Value → List Value → Bool
  | [], [] => true
  | a :: as, b :: bs => beq a b && beqItems as bs
  | _, _ => false

def beqEntries : List (String × Value) → List (String × Value) → Bool
  | [], [] => true
  | (j, a) :: as, (k, b) :: bs => j == k && beq a b && beqEntries as bs
  | _, _ => false

end

instance : BEq Value := ⟨beq⟩

/-- Integer types with numbers that do not fit 64 bits signed. -/
inductive WideInteger where
  | unsigned64
  | signed128
  | unsigned128
  | unsignedWord
  | signedWord
deriving DecidableEq

def WideInteger.name : WideInteger → String
  | unsigned64 => "u64"
  | signed128 => "i128"
  | unsigned128 => "u128"
  | unsignedWord => "usize"
  | signedWord => "isize"

end Value

inductive ValueError where
  | integerOutOfRange (type : Value.WideInteger)
deriving DecidableEq

def ValueError.message : ValueError → String
  | integerOutOfRange type => type.name ++ " value does not fit a 64-bit integer"

namespace Value

def fits (n : Int) : Bool := -0x8000000000000000 ≤ n && n < 0x8000000000000000

def ofSingle (x : Float32) : Value := float x.toFloat

/-- The value of an optional part, null if it is absent. -/
def ofOption (f : α → Value) : Option α → Value
  | none => null
  | some a => f a

def ofWide (type : WideInteger) (n : Int) : Except ValueError Value :=
  if fits n then .ok (int (.ofInt n)) else .error (.integerOutOfRange type)

end Value

end DataAccess
