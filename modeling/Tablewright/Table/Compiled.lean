import Tablewright.Row.Judge
import Tablewright.Settings
import Tablewright.Sql.Column
import Tablewright.Sql.Statement
import Tablewright.Table.Structure

namespace Tablewright

open Log (Context Event Record)

inductive CompileError
  | structure (table : String) (defects : List Defect)
  | fault (f : Fault)
  | limits
  deriving Inhabited

/-- What a failing computation leaves behind: the calls made and the records written. -/
abbrev Outcome (ε α : Type) := Except ε α × Calls × List Record

/-- A table ready for use: its statements, and the model of its rows. -/
structure Compiled where
  name : String
  definition : String
  indexes : List String
  model : Row.Model
  deriving Inhabited

def Compiled.statements (c : Compiled) : List String := c.definition :: c.indexes

def Compiled.validate (c : Compiled) (row : Value) :
    Run (Except Issues (List (String × Value))) :=
  c.model.validate row

def structureMessage (table : String) (defects : List Defect) : String :=
  "Invalid table '" ++ table ++ "': " ++ "; ".intercalate (defects.map (·.message))

namespace Table

def defectRecords (context : Context) (t : Table) : List Record :=
  t.defects.map fun d => (Event.defect t.name d.message).record context

/-- The definitions of columns in order, each reported in a context of its own. -/
def defineColumns (context : Context) : List Column → Calls → Outcome Fault (List String)
  | [], calls => (.ok [], calls, [])
  | c :: cs, calls =>
    let inner := context.withColumn c.name
    match Sql.defineColumn c calls with
    | (.error f, later) => (.error f, later, (Sql.failureEvents c calls).map (·.record inner))
    | (.ok (text, events), calls) =>
      let (rest, calls, records) := defineColumns context cs calls
      (rest.map (text :: ·), calls, events.map (·.record inner) ++ records)

def generate (settings : CompilerSettings) (context : Context) (t : Table) (calls : Calls) :
    Outcome CompileError String :=
  if t.defects.isEmpty then
    let (parts, calls, records) := defineColumns context t.columns calls
    match parts with
    | .error f => (.error (.fault f), calls, records)
    | .ok parts =>
      let parts := parts ++ (Sql.keyClause? t.primaryKeys).toList
      (.ok (Sql.tableStatement settings.ifNotExists t.name parts), calls, records)
  else (.error (.structure t.name t.defects), calls, defectRecords context t)

def indexStatements (settings : CompilerSettings) (t : Table) : List String :=
  t.indexes.map (Sql.indexStatement settings.ifNotExists t.name)

def generateIndexes (settings : CompilerSettings) (context : Context) (t : Table) :
    Except CompileError (List String) × List Record :=
  if t.defects.isEmpty then (.ok (indexStatements settings t), [])
  else (.error (.structure t.name t.defects), defectRecords context t)

def rowModel? (suffix name : String) (columns : List Column) : Option Row.Model :=
  Row.Model.ofColumns? (Row.Model.nameOf name suffix) (columns.map fun c => (c.name, c.rule))

def badName : Fault := .value "type name must not contain null characters"

/-- Make a row model. No model comes of a name with a null character in it, whatever the columns
are. -/
def model (suffix name : String) (columns : List Column) : Except CompileError Row.Model :=
  if suffix.toList.contains '\x00' then .error (.fault badName)
  else match rowModel? suffix name columns with
    | none => .error .limits
    | some m => .ok m

def buildModel (suffix : String) (context : Context) (name : String) (columns : List Column) :
    Except CompileError Row.Model × List Record :=
  match model suffix name columns with
  | .error e => (.error e, [])
  | .ok m => (.ok m, [(Event.validator m.name columns.length).record context])

/-- Compile a table: its statement, its indexes, then the model of its rows. -/
def compile (settings : CompilerSettings) (context : Context) (t : Table) (calls : Calls) :
    Outcome CompileError Compiled :=
  let context := context.withTable t.name "compile"
  let (definition, calls, written) := t.generate settings context calls
  match definition with
  | .error e => (.error e, calls, written)
  | .ok definition =>
    let indexes := indexStatements settings t
    let (model, built) := buildModel settings.rowSuffix context t.name t.columns
    match model with
    | .error e => (.error e, calls, written ++ built)
    | .ok model =>
      (.ok ⟨t.name, definition, indexes, model⟩, calls, written ++ built
        ++ [(Event.compiled t.name t.columns.length indexes.length).record context])

end Table

end Tablewright
