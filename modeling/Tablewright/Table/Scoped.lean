import Tablewright.Catalog.Definition
import Tablewright.Log.Scoped
import Tablewright.Table.Compiled

namespace Tablewright.Table

open Log (Entry Scoped)

def check (t : Table) : Scoped CompileError Unit :=
  if t.defects.isEmpty then Scoped.pure ()
  else do
    (t.defects.map fun d => .defect t.name d.message).forM Scoped.report
    Scoped.fail (.structure t.name t.defects)

def defineScoped (c : Column) : Scoped CompileError String :=
  Scoped.within (.ofColumn c.name) do
    let u ← Scoped.ofRun .fault c.rule.unwrap
    (Sql.clauseEvents u).forM Scoped.report
    if Sql.isWritable c u then
      let text := Sql.columnText c u
      Scoped.report (.column c.name text)
      return text
    else Scoped.fail (.fault .tooManyDigits)

def generateScoped (settings : CompilerSettings) (t : Table) : Scoped CompileError String := do
  t.check
  let parts ← t.columns.mapM defineScoped
  return Sql.tableStatement settings.ifNotExists t.name
    (parts ++ (Sql.keyClause? t.primaryKeys).toList)

def buildScoped (suffix name : String) (columns : List Column) :
    Scoped CompileError Row.Model :=
  match model suffix name columns with
  | .error e => Scoped.fail e
  | .ok m => do
    Scoped.report (.validator m.name columns.length)
    return m

def compileScoped (settings : CompilerSettings) (t : Table) : Scoped CompileError Compiled :=
  Scoped.within (.ofTable t.name "compile") do
    let definition ← t.generateScoped settings
    let indexes := indexStatements settings t
    let model ← buildScoped settings.rowSuffix t.name t.columns
    Scoped.report (.compiled t.name t.columns.length indexes.length)
    return ⟨t.name, definition, indexes, model⟩

def loadScoped (path : Path) (e : Tablewright.Entry) : Scoped LoadError Table :=
  Scoped.within (.ofSource path.text "load") (Scoped.ofExcept (load e))

end Tablewright.Table
