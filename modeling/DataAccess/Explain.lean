import DataAccess.Document.Schema

/-!
# Explanations

The log of one decision or one compilation, which is only ever added to. Its messages name
policies, fields, operators and counts, never a value.
-/

namespace DataAccess

inductive Explain.Level where
  | info
  | warn
  | error
deriving DecidableEq

structure Explain.Entry where
  level : Explain.Level
  message : String
deriving DecidableEq

abbrev Explain := List Explain.Entry

namespace Explain

namespace Level

def name : Level → String
  | info => "INFO"
  | warn => "WARN"
  | error => "ERROR"

def ofName? : String → Option Level
  | "INFO" => some info
  | "WARN" => some warn
  | "ERROR" => some error
  | _ => none

def ofDocument? : Decoder Level := Document.name? ofName?

def toDocument (l : Level) : Document := .text l.name

end Level

namespace Entry

def text (e : Entry) : String := "[" ++ e.level.name ++ "] " ++ e.message

def ofDocument? : Decoder Entry := fun δ d => do
  let fs ← Document.fields? ["level", "message"] δ d
  return { level := ← required δ fs "level" Level.ofDocument?
           message := ← required δ fs "message" Document.text? }

def toDocument (e : Entry) : Document :=
  .table [("level", e.level.toDocument), ("message", .text e.message)]

end Entry

def push (x : Explain) (level : Level) (message : String) : Explain := x ++ [⟨level, message⟩]

def hasError (x : Explain) : Bool := x.any (·.level = .error)

def atLevel (x : Explain) (level : Level) : Explain := x.filter (·.level = level)

def text (x : Explain) : String := "\n".intercalate (x.map Entry.text)

def ofDocument? : Decoder Explain := fun δ d => do
  let fs ← Document.fields? ["entries"] δ d
  required δ fs "entries" (Document.list? Entry.ofDocument?)

def toDocument (x : Explain) : Document := .table [("entries", .list (x.map Entry.toDocument))]

end Explain

end DataAccess
