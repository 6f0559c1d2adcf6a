import Tablewright.Function
import Tablewright.Text.Upper

namespace Tablewright.Log

/-- How serious a record is, as a number: a larger one is more serious. -/
structure Level where
  severity : Int
  deriving DecidableEq, Repr, Inhabited

namespace Level

def debug : Level := ⟨10⟩
def info : Level := ⟨20⟩
def warning : Level := ⟨30⟩
def error : Level := ⟨40⟩
def critical : Level := ⟨50⟩

def words : List (String × Level) :=
  [("NOTSET", ⟨0⟩), ("DEBUG", debug), ("INFO", info), ("WARNING", warning), ("WARN", warning),
    ("ERROR", error), ("CRITICAL", critical), ("FATAL", critical)]

def ofWord? (word : String) : Option Level := words.lookup word

def name (level : Level) : String :=
  match words.find? (·.2 == level) with
  | some (word, _) => word
  | none => "Level " ++ numeral level.severity

/-- The level a setting asks for, in either case of letters. An unknown word means `info`, unless it
is the name of something else than a level. -/
def ofSetting (setting : String) : Except Fault Level :=
  match upper setting with
  | "BASIC_FORMAT" => .error (.value "Unknown level: '%(levelname)s:%(name)s:%(message)s'")
  | "_STYLES" => .error .mistyped
  | word => .ok ((ofWord? word).getD info)

def passes (level threshold : Level) : Bool := threshold.severity ≤ level.severity

end Level

end Tablewright.Log
