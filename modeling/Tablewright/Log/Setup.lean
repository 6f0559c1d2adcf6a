import Tablewright.Log.Event
import Tablewright.Settings

namespace Tablewright.Log

structure Setup where
  threshold : Level
  format : Format
  deriving DecidableEq, Repr, Inhabited

namespace Setup

def configure (env : Environment) (threshold : Level) (structured : Bool) : Setup :=
  ⟨threshold, if structured || asksStructured env then .structured else .readable⟩

def lines (s : Setup) (now : DateTime) (records : List Record) : List String :=
  (records.filter (·.level.passes s.threshold)).filterMap fun r =>
    (s.format.line now r).toOption

end Setup

end Tablewright.Log
