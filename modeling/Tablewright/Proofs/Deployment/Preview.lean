import Tablewright.Proofs.Deployment.Arguments
import Tablewright.Proofs.Deployment.Course
import Tablewright.Proofs.Deployment.Selection

namespace Tablewright.Deployment

open Database (Refusals)
open Log (Record)

namespace Request

variable (r : Request) (env : Environment) (home : Path) (place : Path → Option Entry)

/-- The tables that a deployment compiles, by its variables, its home folder and the files. -/
def tablesIn? : Option (List Compiled) :=
  let source := r.source (.ofEnvironment env) home
  r.compiled? source (place source.directory)

def setupIn : Except Fault Log.Setup := r.setup (.ofEnvironment env) env

variable {r env}

theorem deploy_of_setup {setup : Log.Setup} (h : r.setupIn env = .ok setup) (refusals : Refusals) :
    deploy r env home place refusals =
      ((run r (r.source (.ofEnvironment env) home)
        (place (r.source (.ofEnvironment env) home).directory) refusals).mapError .catalog).map
        (setup, ·) := by
  rw [setupIn] at h
  rw [deploy]
  dsimp only
  rw [h]
  dsimp only
  split <;> rename_i hrun <;> rw [hrun] <;> rfl

theorem deploy_of_fault {f : Fault} (h : r.setupIn env = .error f) (refusals : Refusals) :
    deploy r env home place refusals = .error (.logging f) := by
  rw [setupIn] at h
  rw [deploy]
  dsimp only
  rw [h]

end Request

/-- A deployment, and what a look at it shows before. -/
structure Foreseen (arguments : List String) (r : Request) (env : Environment) (home : Path)
    (place : Path → Option Entry) (cs : List Compiled) : Prop where
  first : Command.ofArguments ("--dry-run" :: arguments) = .deploy r.previewed
  last : Command.ofArguments (arguments ++ ["--dry-run"]) = .deploy r.previewed
  between : ∀ before after d, before ++ after = arguments →
    Command.ofArguments (before ++ "--dry-run" :: after) = .deploy d → d = r.previewed
  selected : r.Selected (r.source (.ofEnvironment env) home)
    (place (r.source (.ofEnvironment env) home).directory) cs
  /-- Where logging cannot be set up, neither of the two begins. -/
  aborted : ∀ f, r.setupIn env = .error f → ∀ refusals,
    deploy r.previewed env home place refusals = .error (.logging f) ∧
      deploy r env home place refusals = .error (.logging f)
  /-- The tables in turn, after the records of their loading, and no action. -/
  shown : ∃ records : List Record, ∀ setup, r.setupIn env = .ok setup → ∀ refusals,
    deploy r.previewed env home place refusals = .ok (setup, ⟨0, records.map .record ++
      lines (cs.flatMap fun c => ("-- " ++ c.name) :: c.statements ++ [""]), []⟩)
  /-- The statements that are shown, up to the first that is refused. -/
  done : ∀ setup, r.setupIn env = .ok setup → ∀ refusals, ∃ report sent,
    deploy r env home place refusals = .ok (setup, report) ∧
    Database.sent report.actions = foreignKeysOn :: sent ∧
    sent <+: cs.flatMap Compiled.statements ∧
    (refusals.first? (cs.flatMap Compiled.statements).length = none →
      sent = cs.flatMap Compiled.statements) ∧
    ∀ k, refusals.first? (cs.flatMap Compiled.statements).length = some k →
      sent = (cs.flatMap Compiled.statements).take k

variable {arguments : List String} {r : Request} {env : Environment} {home : Path}
  {place : Path → Option Entry} {cs : List Compiled}

theorem deploy_previewed (h : r.tablesIn? env home place = some cs) :
    ∃ records : List Record, ∀ setup, r.setupIn env = .ok setup → ∀ refusals,
      deploy r.previewed env home place refusals =
        .ok (setup, ⟨0, records.map .record ++ lines (cs.flatMap previewLines), []⟩) := by
  obtain ⟨records, hrun⟩ := run_of_compiled (r := r.previewed) h
  refine ⟨records, fun setup hs refusals => ?_⟩
  have hshown : run r.previewed (r.source (.ofEnvironment env) home)
      (place (r.source (.ofEnvironment env) home).directory) refusals =
      .ok ⟨0, records.map .record ++ lines (cs.flatMap previewLines), []⟩ := hrun refusals
  have hset : r.previewed.setupIn env = .ok setup := hs
  have hdeploy := Request.deploy_of_setup home place hset refusals
  exact hdeploy.trans (congrArg (fun o => (o.mapError Failure.catalog).map (setup, ·)) hshown)

/-- What a deployment sends to its database is what a look at it shows. -/
theorem foreseen_of_deploy (h : Command.ofArguments arguments = .deploy r) (hdb : r.database ≠ "")
    (hdry : r.dryRun = false) (hcs : r.tablesIn? env home place = some cs) :
    Foreseen arguments r env home place cs where
  first := Command.ofArguments_dryRun_cons h
  last := Command.ofArguments_append_dryRun h
  between before after d hsplit hd := Command.eq_previewed_of_insert (hsplit ▸ h) hd
  selected := Request.selected_of_compiled? hcs
  aborted f hf refusals :=
    ⟨Request.deploy_of_fault (r := r.previewed) home place hf refusals,
      Request.deploy_of_fault home place hf refusals⟩
  shown := deploy_previewed hcs
  done setup hs refusals := by
    obtain ⟨records, hrun⟩ := run_of_compiled hcs
    have hp : ¬r.isPreview = true := by simp [Request.isPreview, hdb, hdry]
    have hreport := Request.deploy_of_setup home place hs refusals
    rw [hrun refusals, if_neg hp] at hreport
    have hsent := sent_execute r.database cs refusals
    cases hf : refusals.first? (statements cs).length with
    | none =>
      rw [hf] at hsent
      refine ⟨_, statements cs, hreport, hsent, List.prefix_rfl, fun _ => rfl, fun k hk => ?_⟩
      cases hf.symm.trans hk
    | some k =>
      rw [hf] at hsent
      refine ⟨_, (statements cs).take k, hreport, hsent, List.take_prefix k _, fun hn => ?_,
        fun j hj => ?_⟩
      · cases hf.symm.trans hn
      · cases hf.symm.trans hj
        rfl

def notesText : String :=
  "{name: notes, columns: [{name: id, rule: {kind: bigint}}], indexes: [{name: n, columns: [id]}]}"

def notesFolder : Entry :=
  .folder [("notes.yaml", .file notesText.toUTF8.toList),
    ("tags.yml", .file "{name: tags, columns: [{name: tag, rule: {kind: any}}]}".toUTF8.toList)]

def notesRequest : Request :=
  { Command.nothing with tables := ["tags", "notes"], database := "app.db" }

def notesArguments : List String :=
  ["--table", "tags", "--table=notes", "--database", "app.db"]

theorem foreseen_of_deploy_notes :
    ∃ cs, cs.map Compiled.statements =
        [["CREATE TABLE tags (\n  tag TEXT NOT NULL\n);"],
          ["CREATE TABLE notes (\n  id BIGINT NOT NULL\n);",
            "CREATE INDEX n ON notes (id);"]] ∧
      Foreseen notesArguments notesRequest [] (.ofText "/home") (fun _ => some notesFolder) cs ∧
      ∃ setup report, deploy notesRequest [] (.ofText "/home") (fun _ => some notesFolder)
          ⟨none, some ⟨2, "database is locked"⟩⟩ = .ok (setup, report) ∧
        Database.sent report.actions = [foreignKeysOn,
          "CREATE TABLE tags (\n  tag TEXT NOT NULL\n);",
          "CREATE TABLE notes (\n  id BIGINT NOT NULL\n);"] := by
  have htables : (notesRequest.tablesIn? [] (.ofText "/home") fun _ => some notesFolder).map
      (List.map Compiled.statements) =
      some [["CREATE TABLE tags (\n  tag TEXT NOT NULL\n);"],
        ["CREATE TABLE notes (\n  id BIGINT NOT NULL\n);",
          "CREATE INDEX n ON notes (id);"]] := by
    decide +kernel
  obtain ⟨cs, hcs, hstatements⟩ := Option.map_eq_some_iff.mp htables
  have hforeseen : Foreseen notesArguments notesRequest [] (.ofText "/home")
      (fun _ => some notesFolder) cs :=
    foreseen_of_deploy (by decide +kernel) (by decide) rfl hcs
  refine ⟨cs, hstatements, hforeseen, ?_⟩
  have hall : cs.flatMap Compiled.statements =
      ["CREATE TABLE tags (\n  tag TEXT NOT NULL\n);",
        "CREATE TABLE notes (\n  id BIGINT NOT NULL\n);",
        "CREATE INDEX n ON notes (id);"] := by
    rw [List.flatMap_def, hstatements]
    rfl
  have hset : ∃ setup, notesRequest.setupIn [] = .ok setup := by
    have hok : (notesRequest.setupIn []).isOk = true := by decide +kernel
    cases hs : notesRequest.setupIn [] with
    | ok setup => exact ⟨setup, rfl⟩
    | error f =>
      rw [hs] at hok
      cases hok
  obtain ⟨setup, hset⟩ := hset
  obtain ⟨report, sent, hdeploy, hsent, -, -, hstopped⟩ :=
    hforeseen.done setup hset ⟨none, some ⟨2, "database is locked"⟩⟩
  refine ⟨setup, report, hdeploy, ?_⟩
  rw [hall] at hstopped
  rw [hsent, hstopped 2 rfl]
  rfl

end Tablewright.Deployment
