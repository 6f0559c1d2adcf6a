import Tablewright.Log.Record
import Tablewright.Sql.Storage

namespace Tablewright.Log

inductive Component
  | loader | script
  deriving DecidableEq, Repr, Inhabited

def Component.text : Component → String
  | .loader => "loader"
  | .script => "script"

def Component.ofText? (s : String) : Option Component :=
  [Component.loader, .script].find? (·.text == s)

inductive Event
  | noStorage (kind : Kind)
  | quotedDefault (value : Value) (storage : Sql.Storage)
  | column (name definition : String)
  | defect (table defect : String)
  | compiled (table : String) (columns indexes : Nat)
  | rehearsed (line : String)
  | executed (statements : Nat) (table : String)
  | validator (name : String) (fields : Nat)
  | directoryMissing (directory : String)
  | unloadable (path reason : String)
  | redefined (table path : String)
  | loaded (table : String) (columns : Nat)
  | loadedAll (tables : Nat) (directory : String)
  | registered (table : String)
  | deploymentFailed (reason : String)
  deriving Inhabited

namespace Event

def level : Event → Level
  | .noStorage _ | .quotedDefault .. | .column .. | .validator .. => .debug
  | .compiled .. | .rehearsed _ | .executed .. | .loaded .. | .loadedAll .. | .registered _ => .info
  | .directoryMissing _ | .redefined .. => .warning
  | .defect .. | .unloadable .. | .deploymentFailed _ => .error

def loaderName : String := "services.table_service"

def logger : Event → String
  | .noStorage _ | .quotedDefault .. => "rulesql.schema.ddl_utils"
  | .column .. | .defect .. | .compiled .. | .rehearsed _ | .executed .. =>
    "rulesql.schema.sql_generator"
  | .validator .. => "rulesql.schema.validator"
  | .directoryMissing _ | .unloadable .. | .redefined .. | .loaded .. | .loadedAll ..
  | .registered _ => loaderName
  | .deploymentFailed _ => "rulesql.deploy"

def component : Event → Option Component
  | .directoryMissing _ | .unloadable .. | .redefined .. | .loaded .. | .loadedAll ..
  | .registered _ => some .loader
  | .deploymentFailed _ => some .script
  | _ => none

def message : Event → String
  | .noStorage kind =>
    "No storage mapping for rule kind " ++ Notation.text kind.text ++ ", using TEXT"
  | .quotedDefault v storage =>
    "Default " ++ v.written ++ " is not numeric for " ++ storage.word ++ ", quoting"
  | .column name text => "Column " ++ name ++ ": " ++ text
  | .defect table reason => "Table " ++ table ++ ": " ++ reason
  | .compiled table columns indexes =>
    "Compiled table " ++ table ++ ": " ++ Nat.repr columns ++ " columns, " ++ Nat.repr indexes
      ++ " indexes"
  | .rehearsed line => "[DRY RUN] " ++ String.ofList (line.toList.take 100) ++ "..."
  | .executed n table => "Executed " ++ Nat.repr n ++ " DDL statements for table " ++ table
  | .validator name fields =>
    "Built row validator " ++ name ++ " with " ++ Nat.repr fields ++ " fields"
  | .directoryMissing directory => "Tables directory not found: " ++ directory
  | .unloadable path reason => "Failed to load " ++ path ++ ": " ++ reason
  | .redefined table path => "Table " ++ table ++ " redefined by " ++ path
  | .loaded table columns =>
    "Loaded table: " ++ table ++ " (" ++ Nat.repr columns ++ " columns)"
  | .loadedAll n directory => "Loaded " ++ Nat.repr n ++ " tables from " ++ directory
  | .registered table => "Registered table: " ++ table
  | .deploymentFailed reason => "Deployment failed: " ++ reason

def site : Event → Site
  | .noStorage _ => ⟨"ddl_utils.py", 106, some "get_storage_type"⟩
  | .quotedDefault .. => ⟨"ddl_utils.py", 194, some "format_default_value"⟩
  | .column .. => ⟨"sql_generator.py", 164, some "column_definition"⟩
  | .defect .. => ⟨"sql_generator.py", 185, some "check_structure"⟩
  | .compiled .. => ⟨"sql_generator.py", 253, some "compile"⟩
  | .rehearsed _ => ⟨"sql_generator.py", 91, some "execute"⟩
  | .executed .. => ⟨"sql_generator.py", 102, some "execute"⟩
  | .validator .. => ⟨"validator.py", 285, some "build_row_validator"⟩
  | .directoryMissing _ => ⟨"table_service.py", 85, some "load_all"⟩
  | .unloadable .. => ⟨"table_service.py", 95, some "load_all"⟩
  | .redefined .. => ⟨"table_service.py", 99, some "load_all"⟩
  | .loaded .. => ⟨"table_service.py", 102, some "load_all"⟩
  | .loadedAll .. => ⟨"table_service.py", 105, some "load_all"⟩
  | .registered _ => ⟨"table_service.py", 162, some "register"⟩
  | .deploymentFailed _ => ⟨"deploy_schema.py", 126, some "main"⟩

def record (context : Context) (e : Event) : Record :=
  let component := (e.component.map fun c => Value.text c.text).getD .null
  ⟨e.level, e.logger, .text e.message, context, Record.withComponent component [], none, e.site⟩

end Event

end Tablewright.Log
