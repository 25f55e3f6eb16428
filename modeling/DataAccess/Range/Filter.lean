import DataAccess.Range.Basic
import DataAccess.Requester
import DataAccess.Resource

/-!
# Row filters

A filter is the text of a range with a mark for every placeholder, and the values behind the
marks in order. Values never become part of the text.
-/

namespace DataAccess

/-- What the placeholders of ranges are looked up in. -/
structure RangeContext where
  tenant : Option String
  subject : Requester
  resource : Resource
  environment : Dictionary Value

/-- Four names stand for parts of the request, whether these are given or not; any other name is
looked up in the environment. -/
def RangeContext.lookup (c : RangeContext) (name : String) : Option Value :=
  match name with
  | "tenantCode" => c.tenant.map .text
  | "subjectId" => c.subject.id.map .text
  | "resourceCode" => c.resource.code.map .text
  | "resourceTypeCode" => c.resource.typeCode.map .text
  | _ => c.environment.get? name

structure RowFilter where
  sql : String
  params : List Value
deriving BEq

namespace RowFilter

def ofDocument? : Decoder RowFilter := fun δ d => do
  let fs ← Document.fields? ["sql", "params"] δ d
  return { sql := ← required δ fs "sql" Document.text?
           params := ← required δ fs "params" (Document.list? Value.ofDocument?) }

def toDocument (f : RowFilter) : Document :=
  .table [("sql", .text f.sql), ("params", .list (f.params.map Value.toDocument))]

end RowFilter

/-- A text with marks and the values behind them. -/
structure MarkedText where
  chars : List Char
  params : List Value

namespace MarkedText

/-- Puts a mark in the place of each placeholder. -/
def ofPieces (c : RangeContext) : List Template.Piece → Except RangeError MarkedText
  | [] => .ok ⟨[], []⟩
  | .char ch :: ps => do
    let t ← ofPieces c ps
    return ⟨ch :: t.chars, t.params⟩
  | .hole name :: ps =>
    match c.lookup (String.ofList name) with
    | none => .error (.unknownPlaceholder (String.ofList name))
    | some v => do
      let t ← ofPieces c ps
      return ⟨'?' :: t.chars, v :: t.params⟩

def grouped (t : MarkedText) : MarkedText := ⟨'(' :: t.chars ++ [')'], t.params⟩

def or (t u : MarkedText) : MarkedText :=
  ⟨t.chars ++ " OR ".toList ++ u.chars, t.params ++ u.params⟩

def ofRange (c : RangeContext) : RowRange → Except RangeError MarkedText
  | .text s =>
    match Template.pieces 0 s.toList with
    | .error fault => .error (.template fault)
    | .ok ps => (ofPieces c ps).map grouped
  | .or l r => do
    let t ← ofRange c l
    let u ← ofRange c r
    return t.or u

end MarkedText

def RowRange.build (c : RangeContext) (r : RowRange) : Except RangeError RowFilter :=
  (MarkedText.ofRange c r).map fun t => ⟨String.ofList t.chars, t.params⟩

end DataAccess
