import DataAccess.Document.Schema
import DataAccess.Text.Blank
import DataAccess.Text.Case

/-!
# Reaches

How far a policy reaches from its resource. Names are read in any case and with blanks around
them; a name that is none of the known ones is kept as it is.
-/

namespace DataAccess

inductive Reach where
  | self
  | children
  | selfAndChildren
  | other (name : String)
deriving DecidableEq

structure UnknownReach where
  name : String
deriving DecidableEq

def UnknownReach.message (e : UnknownReach) : String := "unknown resource range '" ++ e.name ++ "'"

namespace Reach

instance : Inhabited Reach := ⟨self⟩

def name : Reach → String
  | self => "SELF"
  | children => "CHILDREN"
  | selfAndChildren => "SELF_AND_CHILDREN"
  | other name => name

def isKnown : Reach → Bool
  | other _ => false
  | _ => true

def read (s : String) : Except UnknownReach Reach :=
  match Text.toUpper (Text.trim s) with
  | "SELF" => .ok self
  | "CHILDREN" => .ok children
  | "SELF_AND_CHILDREN" => .ok selfAndChildren
  | name => .error ⟨name⟩

def ofText (s : String) : Reach :=
  match read s with
  | .ok r => r
  | .error _ => other s

def ofDocument? : Decoder Reach := fun δ d => (Document.text? δ d).map ofText

def toDocument (r : Reach) : Document := .text r.name

end Reach

end DataAccess
