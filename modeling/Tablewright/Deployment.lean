import Tablewright.Catalog
import Tablewright.Database
import Tablewright.Deployment.Request
import Tablewright.Log.Setup

namespace Tablewright.Deployment

open Log (Context Event Record)

inductive Output
  | line (text : String)
  | record (r : Record)
  deriving Inhabited

structure Report where
  status : Nat
  output : List Output
  actions : List Database.Action
  deriving Inhabited

namespace Request

def source (r : Request) (settings : Settings) (home : Path) : Source :=
  let compiler := settings.compiler
  .ofSettings settings home r.directory
    { compiler with ifNotExists := compiler.ifNotExists || r.ifNotExists }

def threshold (r : Request) (settings : Settings) : Except Fault Log.Level :=
  if r.verbose then .ok .debug else Log.Level.ofSetting settings.logging.level

def setup (r : Request) (settings : Settings) (env : Environment) : Except Fault Log.Setup :=
  (r.threshold settings).map (.configure env · settings.logging.structured)

def selection (r : Request) (known : List String) : List String :=
  if r.tables.isEmpty then known.mergeSort (decide <| · ≤ ·) else r.tables

def isPreview (r : Request) : Bool := r.dryRun || r.database.isEmpty

end Request

def compileAll (source : Source) (folder : Option Entry) :
    List String → Catalog → Calls → Except CatalogError (List Compiled) × List Record
  | [], _, _ => (.ok [], [])
  | name :: names, c, calls =>
    match Catalog.compile source folder .empty name c calls with
    | ((.error e, _, records), _) => (.error e, records)
    | ((.ok compiled, c, records), calls) =>
      let (rest, more) := compileAll source folder names c calls
      (rest.map (compiled :: ·), records ++ more)

/-- The lines that tell why tables were not compiled. Some failures have none. -/
def explain? : CatalogError → Option (List String)
  | .notFound name => some ["Error: " ++ CatalogError.notFoundMessage name]
  | .structure table defects => some (structureLines table defects)
  | .compile (.structure table defects) => some (structureLines table defects)
  | .compile (.fault (.key text)) => some ["Error: " ++ text]
  | .compile _ | .fault _ => none
where
  structureLines (table : String) (defects : List Defect) : List String :=
    ("Error: " ++ structureMessage table defects) :: defects.map fun d => "   - " ++ d.message

def previewLines (c : Compiled) : List String := ("-- " ++ c.name) :: c.statements ++ [""]

def runAll : List Compiled → Database.Connection →
    Except String Nat × List Database.Action × List Record
  | [], _ => (.ok 0, [], [])
  | c :: cs, connection =>
    match Database.deploy (Context.empty.withTable c.name "deploy") c connection with
    | (.error message, _, actions, records) => (.error message, actions, records)
    | (.ok n, connection, actions, records) =>
      let (rest, more, later) := runAll cs connection
      (rest.map (n + ·), actions ++ more, records ++ later)

def foreignKeysOn : String := "PRAGMA foreign_keys = ON"

def lines (texts : List String) : List Output := texts.map .line

/-- Set a connection up for tables that refer to each other, then run their statements. -/
def carryOut (compiled : List Compiled) (refusals : Database.Refusals) :
    Except String Nat × List Database.Action × List Record :=
  match refusals.setting with
  | some message => (.error message, [], [])
  | none => runAll compiled (.ofRefusal refusals.statement)

def execute (database : String) (compiled : List Compiled) (refusals : Database.Refusals) :
    Report :=
  let (result, actions, records) := carryOut compiled refusals
  let actions := [.connect database, .execute foreignKeysOn] ++ actions ++ [.close]
  let before := .line ("Database: " ++ database) :: records.map .record
  match result with
  | .ok n =>
    let total := "Executed " ++ Nat.repr n ++ " statements for " ++ Nat.repr compiled.length
      ++ " tables"
    ⟨0, before ++ [.line total], actions⟩
  | .error message =>
    let failed := Event.deploymentFailed message
    ⟨1, before ++ [.record (failed.record .empty), .line failed.message], actions⟩

/-- Load the tables, compile those that are asked for, then show or run their statements. -/
def run (r : Request) (source : Source) (folder : Option Entry)
    (refusals : Database.Refusals) : Except CatalogError Report :=
  match Catalog.loadAll source folder .empty .empty with
  | (.error e, _, _) => .error e
  | (.ok _, catalog, loaded) =>
    let names := r.selection catalog.names
    if names.isEmpty then
      let nothing := "No table definitions found in " ++ source.directory.text
      .ok ⟨1, loaded.map .record ++ [.line nothing], []⟩
    else
      let (result, records) := compileAll source folder names catalog []
      let before := (loaded ++ records).map .record
      match result with
      | .error e =>
        match explain? e with
        | some texts => .ok ⟨1, before ++ lines texts, []⟩
        | none => .error e
      | .ok compiled =>
        if r.isPreview then .ok ⟨0, before ++ lines (compiled.flatMap previewLines), []⟩
        else
          let report := execute r.database compiled refusals
          .ok { report with output := before ++ report.output }

inductive Failure
  | logging (f : Fault)
  | catalog (e : CatalogError)
  deriving Inhabited

/-- A whole deployment, by the variables that are set and what stands at each place. Logging is set
up before anything else is done. -/
def deploy (r : Request) (env : Environment) (home : Path) (place : Path → Option Entry)
    (refusals : Database.Refusals) : Except Failure (Log.Setup × Report) :=
  let settings := Settings.ofEnvironment env
  match r.setup settings env with
  | .error f => .error (.logging f)
  | .ok setup =>
    let source := r.source settings home
    match run r source (place source.directory) refusals with
    | .error e => .error (.catalog e)
    | .ok report => .ok (setup, report)

/-- All that a deployment writes, each line with its end. Records that pass the threshold are
lines too. -/
def Report.text (r : Report) (setup : Log.Setup) (now : DateTime) : String :=
  let texts := r.output.flatMap fun
    | .line text => [text]
    | .record record => setup.lines now [record]
  String.join (texts.map (· ++ "\n"))

end Tablewright.Deployment
