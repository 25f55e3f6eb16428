import DataAccess.Document.Schema
import DataAccess.Text.Case

/-!
# Log levels

Levels in order of severity. Written names are in upper case; typed ones may use either case and
two short forms.
-/

namespace DataAccess

inductive LogLevel where
  | trace
  | debug
  | info
  | warning
  | error
deriving DecidableEq

namespace LogLevel

def name : LogLevel → String
  | trace => "TRACE"
  | debug => "DEBUG"
  | info => "INFO"
  | warning => "WARNING"
  | error => "ERROR"

/-- The name of the level in the output of a log. -/
def outputName : LogLevel → String
  | warning => "WARN"
  | l => l.name

def severity : LogLevel → Nat
  | trace => 0
  | debug => 1
  | info => 2
  | warning => 3
  | error => 4

def ofText? (s : String) : Option LogLevel :=
  match Text.toLower s with
  | "trace" => some trace
  | "debug" => some debug
  | "info" => some info
  | "warning" | "warn" => some warning
  | "error" | "err" => some error
  | _ => none

def ofName? : String → Option LogLevel
  | "TRACE" => some trace
  | "DEBUG" => some debug
  | "INFO" => some info
  | "WARNING" | "WARN" => some warning
  | "ERROR" => some error
  | _ => none

def ofDocument? : Decoder LogLevel := Document.name? ofName?

def toDocument (l : LogLevel) : Document := .text l.name

/-- Installs a log output at a level unless there is one already; tells whether it did. -/
def install (installed : Option LogLevel) (l : LogLevel) : Option LogLevel × Bool :=
  match installed with
  | some old => (some old, false)
  | none => (some l, true)

end LogLevel

end DataAccess
