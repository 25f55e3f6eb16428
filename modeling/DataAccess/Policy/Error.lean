/-!
# Errors of policy storage
-/

namespace DataAccess

inductive PolicyError where
  | notFound (id : String)
  | conflict (id : String)
  | sourceFailed (cause : String)
deriving DecidableEq

def PolicyError.message : PolicyError → String
  | notFound id => "Policy not found: " ++ id
  | conflict id => "Policy conflict: Policy " ++ id ++ " already exists"
  | sourceFailed cause => "Policy source failed: " ++ cause

end DataAccess
