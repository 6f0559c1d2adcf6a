import Tablewright.Text.Blank
import Tablewright.Text.Upper

namespace Tablewright

abbrev Environment := List (String × String)

namespace Environment

def set (env : Environment) (name text : String) : Environment :=
  (name, text) :: env.filter (·.1 != name)

def unset (env : Environment) (name : String) : Environment := env.filter (·.1 != name)

def text (env : Environment) (name absent : String) : String := (env.lookup name).getD absent

def lower (s : String) : String := String.ofList (s.toList.map Char.toLower)

def flag (env : Environment) (name : String) : Bool :=
  match env.lookup name with
  | none => false
  | some raw =>
    ["1", "true", "yes", "on"].contains (lower (String.ofList (trimBy isBlank raw.toList)))

end Environment

structure CompilerSettings where
  ifNotExists : Bool
  rowSuffix : String
  deriving DecidableEq, Repr, Inhabited

/-- Where definitions are found; each ending is looked for in turn. -/
structure LoaderSettings where
  directory : String
  endings : List String
  deriving DecidableEq, Repr, Inhabited

structure LoggingSettings where
  level : String
  structured : Bool
  deriving DecidableEq, Repr, Inhabited

structure Settings where
  compiler : CompilerSettings
  loader : LoaderSettings
  logging : LoggingSettings
  deriving DecidableEq, Repr, Inhabited

def asksStructured (env : Environment) : Bool :=
  Environment.lower (env.text "LOG_FORMAT" "") == "json"

namespace Settings

def endings : List String := [".yaml", ".yml"]

def ofEnvironment (env : Environment) : Settings where
  compiler := ⟨env.flag "RULESQL_IF_NOT_EXISTS", env.text "RULESQL_ROW_MODEL_SUFFIX" "Row"⟩
  loader := ⟨env.text "RULESQL_TABLES_DIR" "tables", endings⟩
  logging := ⟨upper (env.text "LOG_LEVEL" "INFO"), asksStructured env⟩

def builtin : Settings := ofEnvironment []

end Settings

/-- An environment, and the settings once they have been read from it. -/
structure Session where
  environment : Environment
  settings : Option Settings
  deriving Repr, Inhabited

namespace Session

def ofEnvironment (env : Environment) : Session := ⟨env, none⟩

def current (s : Session) : Settings × Session :=
  match s.settings with
  | some settings => (settings, s)
  | none =>
    let settings := Settings.ofEnvironment s.environment
    (settings, { s with settings := some settings })

def set (s : Session) (name text : String) : Session :=
  { s with environment := s.environment.set name text }

def unset (s : Session) (name : String) : Session :=
  { s with environment := s.environment.unset name }

def reset (s : Session) : Session := { s with settings := none }

end Session

end Tablewright
