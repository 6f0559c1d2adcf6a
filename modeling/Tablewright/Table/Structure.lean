import Tablewright.Table.Basic

namespace Tablewright

/-- A way in which the parts of a table contradict each other. -/
inductive Defect
  | duplicateColumn (name : String)
  | unknownKey (name : String)
  | repeatedKey (name : String)
  | duplicateIndex (name : String)
  | unknownIndexColumn (index column : String)
  deriving DecidableEq, Repr, Inhabited

def Defect.message : Defect → String
  | .duplicateColumn c => "Duplicate column '" ++ c ++ "'"
  | .unknownKey k => "Primary key references unknown column '" ++ k ++ "'"
  | .repeatedKey k => "Primary key lists column '" ++ k ++ "' more than once"
  | .duplicateIndex i => "Duplicate index '" ++ i ++ "'"
  | .unknownIndexColumn i c => "Index '" ++ i ++ "' references unknown column '" ++ c ++ "'"

namespace Table

def columnDefects (seen : List String) : List String → List Defect
  | [] => []
  | n :: ns =>
    (if seen.contains n then [.duplicateColumn n] else []) ++ columnDefects (n :: seen) ns

def keyDefects (declared seen : List String) : List String → List Defect
  | [] => []
  | k :: ks =>
    (if declared.contains k then [] else [.unknownKey k])
      ++ (if seen.contains k then [.repeatedKey k] else [])
      ++ keyDefects declared (k :: seen) ks

def indexDefects (declared seen : List String) : List Index → List Defect
  | [] => []
  | i :: is =>
    (if seen.contains i.name then [.duplicateIndex i.name] else [])
      ++ (i.columns.filter (!declared.contains ·)).map (.unknownIndexColumn i.name)
      ++ indexDefects declared (i.name :: seen) is

def defects (t : Table) : List Defect :=
  columnDefects [] t.columnNames ++ keyDefects t.columnNames [] t.primaryKeys
    ++ indexDefects t.columnNames [] t.indexes

end Table

end Tablewright
