import Tablewright.Table.Basic

namespace Tablewright.Sql

def keyClause? : List String → Option String
  | [] => none
  | keys => some ("PRIMARY KEY (" ++ ", ".intercalate keys ++ ")")

def existsClause (ifNotExists : Bool) : String := if ifNotExists then "IF NOT EXISTS " else ""

def tableStatement (ifNotExists : Bool) (name : String) (parts : List String) : String :=
  "CREATE TABLE " ++ existsClause ifNotExists ++ name ++ " (\n  " ++ ",\n  ".intercalate parts
    ++ "\n);"

def indexStatement (ifNotExists : Bool) (table : String) (i : Index) : String :=
  let condition := match i.condition with
    | some c => if c.isEmpty then "" else " WHERE " ++ c
    | none => ""
  "CREATE " ++ (if i.unique then "UNIQUE " else "") ++ "INDEX " ++ existsClause ifNotExists
    ++ i.name ++ " ON " ++ table ++ " (" ++ ", ".intercalate i.columns ++ ")" ++ condition ++ ";"

end Tablewright.Sql
