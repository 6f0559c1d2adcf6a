import Tablewright.Deployment

namespace Tablewright

def usage : String :=
  "usage: tablewright [-h] [--tables-dir DIRECTORY] [--table NAME] [--database FILE] [--dry-run]\n"
    ++ "                   [--if-not-exists] [--verbose]"

def variableNames : List String :=
  ["RULESQL_TABLES_DIR", "RULESQL_IF_NOT_EXISTS", "RULESQL_ROW_MODEL_SUFFIX", "LOG_LEVEL",
    "LOG_FORMAT"]

def environment : IO Environment :=
  variableNames.filterMapM fun name => do
    return (← IO.getEnv name).map fun text => (name, text)

def moment : IO DateTime := do
  let (_, file) ← IO.FS.createTempFile
  let stamp := (← file.metadata).modified
  IO.FS.removeFile file
  return .ofEpoch stamp.sec (stamp.nsec.toNat / 1000)

def readPlace (p : Path) : IO (Option Entry) := do
  let place ← try some <$> IO.FS.realPath p.text catch _ => pure none
  let some place := place | return none
  if !(← place.pathExists) then return none
  if !(← place.isDir) then return some (.file [])
  let entries ← (← place.readDir).toList.mapM fun e => do
    let inner ←
      if ← e.path.isDir then pure (Entry.folder [])
      else pure (Entry.file (← IO.FS.readBinFile e.path).toList)
    return (e.fileName, inner)
  return some (.folder entries)

def script (actions : List Database.Action) : String :=
  String.join <| actions.filterMap fun
    | .execute sql => some (sql ++ ";\n")
    | .run sql => some (sql ++ "\n")
    | _ => none

/-- Deploy as a command line asks. The statements for a database are left in a script beside it,
for its own shell to run. -/
def deployFrom (arguments : List String) : IO UInt32 := do
  match Deployment.Command.ofArguments arguments with
  | .help =>
    IO.println usage
    return 0
  | .misuse =>
    IO.eprintln usage
    return 2
  | .deploy r =>
    let env ← environment
    let home := Path.ofText (← IO.currentDir).toString
    let found ← readPlace (r.source (.ofEnvironment env) home).directory
    match Deployment.deploy r env home (fun _ => found) ⟨none, none⟩ with
    | .error (.logging _) =>
      IO.eprintln "The logging level is none."
      return 1
    | .error (.catalog _) =>
      IO.eprintln "A definition cannot be read."
      return 1
    | .ok (setup, report) =>
      IO.print (report.text setup (← moment))
      if !report.actions.isEmpty then
        IO.FS.writeFile (r.database ++ ".sql") (script report.actions)
      return report.status.toUInt32

end Tablewright

def main (arguments : List String) : IO UInt32 := Tablewright.deployFrom arguments
