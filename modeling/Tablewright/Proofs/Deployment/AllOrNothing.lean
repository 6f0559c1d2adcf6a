import Mathlib.Data.List.Basic
import Tablewright.Proofs.Deployment.Connection
import Tablewright.Proofs.Table.Compiled

namespace Tablewright

open Log (Context Record)

namespace Sql

open Database (hasLine)

theorem hasLine_append {s : String} (h : hasLine s = true) (t : String) :
    hasLine (s ++ t) = true := by
  simp_all [hasLine]

theorem hasLine_tableStatement (ifNotExists : Bool) (name : String) (parts : List String) :
    hasLine (tableStatement ifNotExists name parts) = true := by
  unfold tableStatement
  simp only [String.append_assoc]
  exact hasLine_append rfl _

theorem hasLine_indexStatement (ifNotExists : Bool) (table : String) (i : Index) :
    hasLine (indexStatement ifNotExists table i) = true := by
  unfold indexStatement
  simp only [String.append_assoc]
  exact hasLine_append rfl _

end Sql

namespace Database

/-- The actions of a run, by the first statement that is refused: none is, and all are committed, or
those after it are never sent. -/
inductive Ending (c : Connection) (statements : List String) :
    Except RunError Nat → Connection → List Action → Prop
  | committed (spared : c.Spares statements.length) :
      Ending c statements (.ok statements.length) (c.after statements.length)
        (attempt statements ++ [.commit])
  | stopped {k : Nat} {message : String} (refused : c.Refuses k message)
      (bound : k < statements.length) :
      Ending c statements (.error (.refused message)) (c.after (k + 1))
        (attempt (statements.take (k + 1)))

theorem count_attempt {a : Action} (h : ∀ sql, a ≠ .run sql) (statements : List String) :
    (attempt statements).count a = [Action.openCursor, .closeCursor].count a := by
  have hruns : (statements.map Action.run).count a = 0 := by
    rw [List.count_eq_zero]
    intro hm
    obtain ⟨sql, -, rfl⟩ := List.mem_map.mp hm
    exact h sql rfl
  simp [attempt, List.count_cons, hruns]

theorem commit_notMem_attempt (statements : List String) : .commit ∉ attempt statements := by
  apply List.count_eq_zero.mp
  rw [count_attempt (by simp)]
  rfl

/-- What a caller can rely on, whatever the connection refuses. -/
structure AllOrNothing (c : Connection) (statements : List String) (result : Except RunError Nat)
    (after : Connection) (actions : List Action) : Prop where
  ending : Ending c statements result after actions
  opens : actions.count .openCursor = 1
  closes : actions.count .closeCursor = 1
  sent : sent actions <+: statements
  commits : actions.count .commit = if result = .ok statements.length then 1 else 0
  /-- A commit comes last, when all statements have run and their cursor is closed. -/
  last : ∀ before rest, actions = before ++ .commit :: rest →
    before = attempt statements ∧ rest = []

theorem Ending.allOrNothing {c after : Connection} {statements : List String}
    {result : Except RunError Nat} {actions : List Action}
    (h : Ending c statements result after actions) :
    AllOrNothing c statements result after actions := by
  have hopen (ss : List String) : (attempt ss).count .openCursor = 1 := count_attempt (by simp) ss
  have hclose (ss : List String) : (attempt ss).count .closeCursor = 1 := count_attempt (by simp) ss
  have hcommit (ss : List String) : (attempt ss).count .commit = 0 := count_attempt (by simp) ss
  cases h with
  | committed spared =>
    refine ⟨.committed spared, by simp [hopen], by simp [hclose], ?_, by simp [hcommit], ?_⟩
    · rw [sent_append, sent_attempt]
      exact ⟨[], by simp [Database.sent, Action.sql?]⟩
    · intro before rest heq
      obtain ⟨hb, -, hr⟩ := (List.append_cons_inj_of_notMem (commit_notMem_attempt statements)
        List.not_mem_nil).mp heq
      exact ⟨hb.symm, hr.symm⟩
  | stopped refused bound =>
    refine ⟨.stopped refused bound, hopen _, hclose _, ?_, by simp [hcommit], ?_⟩
    · rw [sent_attempt]
      exact List.take_prefix _ _
    · intro before rest heq
      have hm : .commit ∈ before ++ Action.commit :: rest := by simp
      exact absurd (heq ▸ hm) (commit_notMem_attempt _)

theorem ending_execute (context : Context) (compiled : Compiled) (c : Connection) :
    ∃ result after actions records,
      execute context compiled c false = (result, after, actions, records) ∧
      Ending c compiled.statements result after actions := by
  obtain hspares | ⟨k, hk, message, hr⟩ := c.spares_or_refuses compiled.statements.length
  · refine ⟨_, _, _, [(Log.Event.executed compiled.statements.length compiled.name).record
      context], ?_, .committed hspares⟩
    rw [execute, deploy_of_spares context hspares]
    rfl
  · refine ⟨_, _, _, [], ?_, .stopped hr hk⟩
    rw [execute, deploy_of_refuses context hr hk]
    rfl

theorem execute_dryRun {compiled : Compiled} (h : ∀ s ∈ compiled.statements, hasLine s = true)
    (context : Context) (c : Connection) :
    execute context compiled c true =
      (.ok compiled.statements.length, c, [], reports context compiled.statements) := by
  have hall : compiled.statements.all hasLine = true := List.all_eq_true.mpr h
  simp [execute, rehearse, hall]

/-- Statements over a connection that may refuse any of them: all of them run and are committed, or
the first that is refused ends the run, and nothing is committed. A rehearsal of any statements
that are not empty, and so of any table that compiles, comes to its end, and the connection is left
alone. -/
theorem allOrNothing_execute (context : Context) (compiled : Compiled) (c : Connection) :
    (∃ result after actions records,
      execute context compiled c false = (result, after, actions, records) ∧
      AllOrNothing c compiled.statements result after actions) ∧
    ((∀ s ∈ compiled.statements, s ≠ "") → execute context compiled c true =
      (.ok compiled.statements.length, c, [], reports context compiled.statements)) ∧
    ∀ {settings : CompilerSettings} {outer : Context} {t : Table} {calls later : Calls}
      {records : List Record},
      t.compile settings outer calls = (.ok compiled, later, records) →
      (∃ parts, compiled.statements = Sql.tableStatement settings.ifNotExists t.name parts ::
        t.indexes.map (Sql.indexStatement settings.ifNotExists t.name)) ∧
      execute context compiled c true =
        (.ok compiled.statements.length, c, [], reports context compiled.statements) := by
  refine ⟨?_, fun h => ?_, ?_⟩
  · obtain ⟨result, after, actions, records, hrun, hend⟩ := ending_execute context compiled c
    exact ⟨result, after, actions, records, hrun, hend.allOrNothing⟩
  · exact execute_dryRun (fun s hs => by simpa [hasLine] using h s hs) context c
  · intro settings outer t calls later records h
    obtain ⟨us, m, -, -, rfl⟩ := Table.exists_of_compile h
    refine ⟨⟨_, rfl⟩, execute_dryRun (fun s hs => ?_) context c⟩
    obtain rfl | hs := List.mem_cons.mp hs
    · exact Sql.hasLine_tableStatement _ _ _
    · obtain ⟨i, -, rfl⟩ := List.mem_map.mp hs
      exact Sql.hasLine_indexStatement _ _ i

def unnamed : Table where
  name := "\n"
  columns := [⟨"\r", .scalar [] .any, false, none⟩]
  primaryKeys := []
  indexes := [⟨"", ["\r"], true, some "\n\n"⟩, ⟨"\u2028", [], false, some ""⟩]
  description := none

def fifthRefused : Connection := ⟨3, some ⟨5, "database is locked"⟩⟩

theorem allOrNothing_execute_unnamed :
    ∃ compiled later records,
      unnamed.compile ⟨true, "Row"⟩ .empty [] = (.ok compiled, later, records) ∧
      execute .empty compiled fifthRefused true =
        (.ok 3, fifthRefused, [], reports .empty compiled.statements) ∧
      ∃ more, execute .empty compiled fifthRefused false =
        (.error (.refused "database is locked"), fifthRefused.after 2,
          attempt (compiled.statements.take 2), more) := by
  have hok : (unnamed.compile ⟨true, "Row"⟩ .empty []).1.isOk = true := by decide +kernel
  cases hc : unnamed.compile ⟨true, "Row"⟩ .empty [] with
  | mk result more =>
    obtain ⟨later, records⟩ := more
    rw [hc] at hok
    cases result with
    | error e => cases hok
    | ok compiled =>
      obtain ⟨⟨result, after, actions, more, hrun, hall⟩, -, hdry⟩ :=
        allOrNothing_execute .empty compiled fifthRefused
      obtain ⟨⟨parts, hstatements⟩, hdry⟩ := hdry hc
      have hlength : compiled.statements.length = 3 := by simp [hstatements, unnamed]
      refine ⟨compiled, later, records, rfl, by rw [hdry, hlength], more, ?_⟩
      have hr : fifthRefused.Refuses 1 "database is locked" := rfl
      rw [hrun]
      cases hall.ending with
      | committed spared => exact absurd hr (spared 1 (by omega) _)
      | @stopped k message refused bound =>
        -- One position is refused, so it is this one.
        obtain ⟨hposition, rfl⟩ := Refusal.mk.inj (Option.some.inj (refused.symm.trans hr))
        obtain rfl : k = 1 := by omega
        rfl

end Database

end Tablewright
