import DataAccess.Document.Basic
import DataAccess.Decimal.FloatText

/-!
# Writing JSON

The compact text of a document. Fields stay in their order, characters beyond ASCII are written as
they are, and a number that is not finite is written as null.
-/

namespace DataAccess.Json

open Decimal

def floatText : FloatText := ⟨false, -5, true⟩

def hexChar (n : Nat) : Char := Char.ofNat (if n < 10 then 48 + n else 87 + n)

def escape (c : Char) : List Char :=
  if c = '"' then ['\\', '"']
  else if c = '\\' then ['\\', '\\']
  else if c = '\n' then ['\\', 'n']
  else if c = '\r' then ['\\', 'r']
  else if c = '\t' then ['\\', 't']
  else if c = '\x08' then ['\\', 'b']
  else if c = '\x0c' then ['\\', 'f']
  else if c.toNat < 32 then ['\\', 'u', '0', '0', hexChar (c.toNat / 16), hexChar (c.toNat % 16)]
  else [c]

def quoted (s : String) : List Char := '"' :: s.toList.flatMap escape ++ ['"']

mutual

def chars : Document → List Char
  | .null => "null".toList
  | .bool b => if b then "true".toList else "false".toList
  | .int n => (toString n).toList
  | .float x => if x.isFinite then (floatText.write x).toList else "null".toList
  | .text s => quoted s
  | .list [] => ['[', ']']
  | .list (d :: ds) => '[' :: chars d ++ itemChars ds
  | .table [] => ['\x7b', '\x7d']
  | .table ((k, d) :: fs) => '\x7b' :: quoted k ++ ':' :: chars d ++ fieldChars fs
  | .fault => "null".toList

/-- The elements of a list after the first one, and the closing bracket. -/
def itemChars : List Document → List Char
  | [] => [']']
  | d :: ds => ',' :: chars d ++ itemChars ds

/-- The fields of a table after the first one, and the closing brace. -/
def fieldChars : List (String × Document) → List Char
  | [] => ['\x7d']
  | (k, d) :: fs => ',' :: quoted k ++ ':' :: chars d ++ fieldChars fs

end

def write (d : Document) : String := String.ofList (chars d)

end DataAccess.Json
