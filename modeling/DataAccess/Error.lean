import DataAccess.Config.Load
import DataAccess.Policy.Error
import DataAccess.Range.Basic
import DataAccess.Rule.Compile

/-!
# Errors

Any error of the library, with the phase it comes from.
-/

namespace DataAccess

inductive Error where
  | policy (e : PolicyError)
  | compile (e : CompileError)
  | render (e : RenderError)
  | range (e : RangeError)
  | config (e : ConfigError)
  | value (e : ValueError)

def Error.message : Error → String
  | policy e => "Policy error: " ++ e.message
  | compile e => "Compile error: " ++ e.message
  | render e => "Render error: " ++ e.message
  | range e => "Range error: " ++ e.message
  | config e => "Configuration error: " ++ e.message
  | value e => "Value error: " ++ e.message

end DataAccess
