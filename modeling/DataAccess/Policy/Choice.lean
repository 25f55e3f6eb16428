import DataAccess.Document.Schema

/-!
# Effects, verdicts and scopes

What a policy does, how a decision ends, and which dimension of a resource a policy restricts.
-/

namespace DataAccess

inductive Effect where
  | allow
  | deny
deriving DecidableEq

namespace Effect

def name : Effect → String
  | allow => "ALLOW"
  | deny => "DENY"

def ofName? : String → Option Effect
  | "ALLOW" => some allow
  | "DENY" => some deny
  | _ => none

def ofDocument? : Decoder Effect := Document.name? ofName?

def toDocument (e : Effect) : Document := .text e.name

end Effect

inductive Verdict where
  | allow
  | deny
deriving DecidableEq

namespace Verdict

def name : Verdict → String
  | allow => "ALLOW"
  | deny => "DENY"

def ofName? : String → Option Verdict
  | "ALLOW" => some allow
  | "DENY" => some deny
  | _ => none

def isAllow (v : Verdict) : Bool := v = allow

def ofDocument? : Decoder Verdict := Document.name? ofName?

def toDocument (v : Verdict) : Document := .text v.name

end Verdict

/-- The verdict of an effect that stands alone. -/
def Effect.verdict : Effect → Verdict
  | allow => .allow
  | deny => .deny

inductive Scope where
  | row
  | column
  | resource
deriving DecidableEq

namespace Scope

def name : Scope → String
  | row => "ROW"
  | column => "COLUMN"
  | resource => "RESOURCE"

def ofName? : String → Option Scope
  | "ROW" => some row
  | "COLUMN" => some column
  | "RESOURCE" => some resource
  | _ => none

def ofDocument? : Decoder Scope := Document.name? ofName?

def toDocument (s : Scope) : Document := .text s.name

end Scope

end DataAccess
