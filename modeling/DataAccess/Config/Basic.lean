import DataAccess.LogLevel
import DataAccess.Policy.Reach
import DataAccess.Rule.Settings

/-!
# Configurations

Settings of the compiler, the engine and the log. Every part has a default, and in a layer over
another configuration a part with the default gives way.
-/

namespace DataAccess

structure EngineSettings where
  defaultReach : Reach := .self
deriving DecidableEq

structure LoggingSettings where
  level : LogLevel := .info
deriving DecidableEq

structure Config where
  compiler : CompilerSettings := {}
  engine : EngineSettings := {}
  logging : LoggingSettings := {}
deriving DecidableEq

/-- Why a configuration cannot be used. -/
inductive InvalidConfig where
  | zeroDepth
  | blankSubjectVariable
  | unknownReach (name : String)
deriving DecidableEq

def InvalidConfig.message : InvalidConfig → String
  | zeroDepth => "compiler.max_value_depth cannot be zero"
  | blankSubjectVariable => "compiler.subject_variable cannot be blank"
  | unknownReach name => "engine.default_resource_range '" ++ name ++ "' is not a known range"

namespace EngineSettings

def ofDocument? : Decoder EngineSettings := fun δ d => do
  let fs ← Document.fields? ["default_resource_range"] δ d
  return { defaultReach := ← defaulted δ fs "default_resource_range" .self Reach.ofDocument? }

def toDocument (s : EngineSettings) : Document :=
  .table [("default_resource_range", s.defaultReach.toDocument)]

end EngineSettings

namespace LoggingSettings

def ofDocument? : Decoder LoggingSettings := fun δ d => do
  let fs ← Document.fields? ["level"] δ d
  return { level := ← defaulted δ fs "level" .info LogLevel.ofDocument? }

def toDocument (s : LoggingSettings) : Document := .table [("level", s.level.toDocument)]

end LoggingSettings

namespace Config

def validate (c : Config) : Except InvalidConfig Unit :=
  if c.compiler.maxDepth = 0 then .error .zeroDepth
  else if Text.isBlankText c.compiler.subjectVariable then .error .blankSubjectVariable
  else match c.engine.defaultReach with
    | .other name => .error (.unknownReach name)
    | _ => .ok ()

/-- The setting of a layer, unless it is the default. -/
def layer [DecidableEq α] (default lower upper : α) : α := if upper = default then lower else upper

def merge (lower upper : Config) : Config :=
  let base : Config := {}
  { compiler :=
      { strict := layer base.compiler.strict lower.compiler.strict upper.compiler.strict
        maxDepth := layer base.compiler.maxDepth lower.compiler.maxDepth upper.compiler.maxDepth
        subjectVariable := layer base.compiler.subjectVariable lower.compiler.subjectVariable
          upper.compiler.subjectVariable }
    engine :=
      { defaultReach := layer base.engine.defaultReach lower.engine.defaultReach
          upper.engine.defaultReach }
    logging := { level := layer base.logging.level lower.logging.level upper.logging.level } }

def ofDocument? : Decoder Config := fun δ d => do
  let fs ← Document.fields? ["compiler", "engine", "logging"] δ d
  return { compiler := ← defaulted δ fs "compiler" {} CompilerSettings.ofDocument?
           engine := ← defaulted δ fs "engine" {} EngineSettings.ofDocument?
           logging := ← defaulted δ fs "logging" {} LoggingSettings.ofDocument? }

def toDocument (c : Config) : Document :=
  .table [("compiler", c.compiler.toDocument), ("engine", c.engine.toDocument),
    ("logging", c.logging.toDocument)]

end Config

end DataAccess
