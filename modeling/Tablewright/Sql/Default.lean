import Tablewright.Log.Event
import Tablewright.Numeric.Reading
import Tablewright.Sql.Literal
import Tablewright.Sql.Storage

namespace Tablewright.Sql

open Log (Event)

def numeralOfText? (s : String) : Option String :=
  let cs := trimBy isBlank s.toList
  match readInt? digitValue? cs with
  | some n => some (numeral n)
  | none =>
    match readFloat? digitValue? cs with
    | some x => if x.isFinite then some x.text else none
    | none => none

def numeralOf? : Value → Option String
  | .bool b => some (bare (.bool b))
  | .int n => some (numeral n)
  | .float x => if x.isFinite then some x.text else none
  | .decimal d => if d.isFinite then some d.text else none
  | .duration d => some (numeral d.wholeSeconds)
  | .text s => numeralOfText? s
  | _ => none

def memberNumeral? : Value → Option String
  | .member v => numeralOf? v
  | v => numeralOf? v

/-- A default in the form that a column type wants. What has no numeral is quoted, also in a
column of numbers. -/
def defaultLiteral (v : Value) (storage : Storage) : String :=
  if v.isNull || storage = .null then "NULL"
  else if storage.isTextual then quoted v
  else if storage.isNumeric then (memberNumeral? v).getD (quoted v)
  else if storage = .boolean then (if v.isTruthy then "1" else "0")
  else quoted v

/-- Whether a default can be written: only the truth of one in a column of truth values is. -/
def hasDefault (v : Value) (storage : Storage) : Bool :=
  v.isNull || storage = .null || storage = .boolean || v.isWritable

def defaultClause (v : Value) (storage : Storage) : String :=
  "DEFAULT " ++ defaultLiteral v storage

def defaultEvents (v : Value) (storage : Storage) : List Event :=
  if !v.isNull && storage.isNumeric && (memberNumeral? v).isNone then [.quotedDefault v storage]
  else []

end Tablewright.Sql
