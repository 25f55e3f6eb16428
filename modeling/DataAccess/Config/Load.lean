import DataAccess.Config.Basic
import DataAccess.Toml.Reader

/-!
# Loading configurations

A configuration is read from TOML and must be usable. Without a file, or where there is none, the
defaults stand.
-/

namespace DataAccess

inductive ConfigError where
  | loadFailed
  | parseFailed
  | invalid (cause : InvalidConfig)
deriving DecidableEq

/-- The causes of failed loading and reading are left to whoever loads and reads. -/
def ConfigError.message : ConfigError → String
  | loadFailed => "Failed to load configuration"
  | parseFailed => "Failed to parse configuration"
  | invalid cause => "Invalid configuration: " ++ cause.message

/-- Where a configuration may come from. -/
inductive ConfigLocation where
  | unset
  | missing
  | directory
  | file (content : ByteArray)

namespace Config

def ofToml (s : String) : Except ConfigError Config :=
  match (Toml.read? s).bind (ofDocument? .toml) with
  | some c => .ok c
  | none => .error .parseFailed

def check (c : Config) : Except ConfigError Config :=
  match c.validate with
  | .ok () => .ok c
  | .error cause => .error (.invalid cause)

/-- A file has to be UTF-8. -/
def load : ConfigLocation → Except ConfigError Config
  | .unset => .ok {}
  | .missing => .ok {}
  | .directory => .error .loadFailed
  | .file content =>
    match String.fromUTF8? content with
    | some s => (ofToml s).bind check
    | none => .error .loadFailed

end Config

end DataAccess
