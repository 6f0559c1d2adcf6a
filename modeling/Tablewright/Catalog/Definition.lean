import Tablewright.Catalog.Folder
import Tablewright.Table.Structure
import Tablewright.Yaml.Document

namespace Tablewright

inductive LoadError
  | unreadable
  | document (f : Yaml.Fault)
  | notAMapping (typeName : String)
  | invalid (issues : Issues)
  | structure (defects : List Defect)
  deriving Inhabited

namespace LoadError

def reason (path : Path) : LoadError → String
  | .unreadable | .document _ => "<unreadable>"
  | .notAMapping name => "Expected a mapping in " ++ path.text ++ ", got " ++ name
  | .invalid issues => errorCount issues.length "TableSpec"
  | .structure defects =>
    "Invalid table in " ++ path.text ++ ": "
      ++ (Value.list (defects.map fun d => .text d.message)).written

def fatal? : LoadError → Option Yaml.Fault
  | .document .malformed => none
  | .document f => some f
  | _ => none

end LoadError

namespace Table

def ofValue (v : Value) : Except LoadError Table :=
  match v with
  | .dict _ =>
    match Table.read .none v with
    | .error issues => .error (.invalid issues)
    | .ok t => if t.defects.isEmpty then .ok t else .error (.structure t.defects)
  | v => .error (.notAMapping v.typeName)

def load (e : Entry) : Except LoadError Table :=
  match e.text? with
  | none => .error .unreadable
  | some cs =>
    match Yaml.read cs with
    | .error f => .error (.document f)
    | .ok v => ofValue v

end Table

end Tablewright
