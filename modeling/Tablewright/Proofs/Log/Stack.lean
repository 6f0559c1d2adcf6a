import Tablewright.Proofs.Log.Scoped
import Tablewright.Proofs.Sql.Definition

namespace Tablewright

open Log (Context Event Record Scopes Move Nested DeterminedBy stillOpen)

namespace Table

def rendering (context : Context) (p : Column × Unwrapped) : List Record :=
  (Sql.columnEvents p.1 p.2).map (·.record (context.withColumn p.1.name))

theorem column_of_mem_rendering {context : Context} {p : Column × Unwrapped} {r : Record}
    (h : r ∈ rendering context p) : r.context.column = .text p.1.name := by
  obtain ⟨e, -, rfl⟩ := List.mem_map.mp h
  rfl

def failing (context : Context) (c : Column) (u : Unwrapped) : List Record :=
  (Sql.clauseEvents u).map (·.record (context.withColumn c.name))

theorem column_of_mem_failing {context : Context} {c : Column} {u : Unwrapped} {r : Record}
    (h : r ∈ failing context c u) : r.context.column = .text c.name := by
  obtain ⟨e, -, rfl⟩ := List.mem_map.mp h
  rfl

theorem ne_column_of_mem_clauseEvents {u : Unwrapped} {e : Event} (h : e ∈ Sql.clauseEvents u)
    (name text : String) : e ≠ .column name text := by
  rintro rfl
  rw [Sql.clauseEvents, List.mem_append] at h
  obtain h | h := h
  · rw [Sql.storageEvents] at h
    split at h <;> simp at h
  · split at h
    · cases hd : u.default with
      | none =>
        rw [hd] at h
        cases h
      | some v =>
        rw [hd] at h
        change _ ∈ Sql.defaultEvents v _ at h
        rw [Sql.defaultEvents] at h
        split at h <;> simp at h
    · cases h

/-- The records about the first columns, whose definitions are complete, and about the one after
them if its definition fails. -/
def Rendered (context : Context) (cs : List Column) (us : List Unwrapped) (records : List Record) :
    Prop :=
  ∃ broken, records = (cs.zip us).flatMap (rendering context) ++ broken ∧
    us.length ≤ cs.length ∧
    (broken = [] ∨ ∃ c ∈ cs[us.length]?, ∃ u, broken = failing context c u)

theorem exists_rendered (context : Context) (cs : List Column) (calls : Calls) :
    ∃ us, Rendered context cs us (defineColumns context cs calls).2.2 ∧
      ((defineColumns context cs calls).1.isOk = true →
        us.length = cs.length ∧
          (defineColumns context cs calls).2.2 = (cs.zip us).flatMap (rendering context)) := by
  induction cs generalizing calls with
  | nil => exact ⟨[], ⟨[], by simp [defineColumns]⟩, fun _ => ⟨rfl, rfl⟩⟩
  | cons c cs ih =>
    rw [defineColumns]
    cases hd : Sql.defineColumn c calls with
    | mk result later =>
      cases result with
      | error f =>
        refine ⟨[], ⟨_, rfl, Nat.zero_le _, ?_⟩, by rintro ⟨⟩⟩
        rw [Sql.failureEvents]
        split
        · rename_i u _ _
          exact .inr ⟨c, rfl, u, rfl⟩
        · exact .inl rfl
      | ok defined =>
        obtain ⟨text, events⟩ := defined
        obtain ⟨u, -, -, rfl, rfl⟩ := Sql.exists_of_defineColumn hd
        obtain ⟨us, ⟨broken, hrecords, hlength, hbroken⟩, hall⟩ := ih later
        refine ⟨u :: us, ⟨broken, ?_, Nat.succ_le_succ hlength, hbroken⟩, fun hok => ?_⟩
        · simp [hrecords, rendering]
        · have hrest : (defineColumns context cs later).1.isOk = true := by
            cases hparts : (defineColumns context cs later).1 <;>
              simp_all [Except.map, Except.isOk, Except.toBool]
          obtain ⟨hlength, hwhole⟩ := hall hrest
          exact ⟨congrArg (· + 1) hlength, by simp [hwhole, rendering]⟩

/-- What the records of a compilation say about where they were written. -/
structure Traced (t : Table) (context : Context) (o : Outcome CompileError Compiled) : Prop where
  everywhere : ∀ r ∈ o.2.2,
    r.context.table = .text t.name ∧ r.context.operation = .text "compile"
  /-- The columns are rendered first, each in a context of its own, up to one that cannot be, and
  nothing else renders one. -/
  columns : ∃ (us : List Unwrapped) (broken : List Record) (others : List Event),
    o.2.2 = (t.columns.zip us).flatMap (rendering (context.withTable t.name "compile")) ++ broken ++
      others.map (·.record (context.withTable t.name "compile")) ∧
    us.length ≤ t.columns.length ∧
    (o.1.isOk = true → us.length = t.columns.length ∧ broken = []) ∧
    (∀ p ∈ t.columns.zip us, ∀ r ∈ rendering (context.withTable t.name "compile") p,
      r.context.column = .text p.1.name) ∧
    (broken = [] ∨ ∃ c ∈ t.columns[us.length]?, ∃ u,
      broken = failing (context.withTable t.name "compile") c u ∧
      (∀ r ∈ broken, r.context.column = .text c.name) ∧
      ∀ e ∈ Sql.clauseEvents u, ∀ name text, e ≠ .column name text) ∧
    ∀ e ∈ others, ∀ name text, e ≠ .column name text

theorem traced_of_rendered {t : Table} {context : Context} {o : Outcome CompileError Compiled}
    {us : List Unwrapped} {written : List Record} (others : List Event)
    (h : Rendered (context.withTable t.name "compile") t.columns us written)
    (ho : o.2.2 = written ++ others.map (·.record (context.withTable t.name "compile")))
    (hok : o.1.isOk = true → us.length = t.columns.length ∧
      written = (t.columns.zip us).flatMap (rendering (context.withTable t.name "compile")))
    (hothers : ∀ e ∈ others, ∀ name text, e ≠ .column name text) : Traced t context o := by
  obtain ⟨broken, rfl, hlength, hbroken⟩ := h
  refine ⟨fun r hr => ?_, us, broken, others, ho, hlength, fun h => ?_,
    fun p _ r hr => column_of_mem_rendering hr, ?_, hothers⟩
  · rw [ho, List.mem_append, List.mem_append] at hr
    obtain (hr | hr) | hr := hr
    · obtain ⟨p, -, hr⟩ := List.mem_flatMap.mp hr
      obtain ⟨e, -, rfl⟩ := List.mem_map.mp hr
      exact ⟨rfl, rfl⟩
    · obtain rfl | ⟨c, -, u, rfl⟩ := hbroken
      · cases hr
      · obtain ⟨e, -, rfl⟩ := List.mem_map.mp hr
        exact ⟨rfl, rfl⟩
    · obtain ⟨e, -, rfl⟩ := List.mem_map.mp hr
      exact ⟨rfl, rfl⟩
  · obtain ⟨hall, hwhole⟩ := hok h
    exact ⟨hall, List.append_right_eq_self.mp hwhole⟩
  · refine hbroken.imp id ?_
    rintro ⟨c, hc, u, rfl⟩
    exact ⟨c, hc, u, rfl, fun r hr => column_of_mem_failing hr,
      fun e he => ne_column_of_mem_clauseEvents he⟩

theorem traced_compile (settings : CompilerSettings) (context : Context) (t : Table)
    (calls : Calls) : Traced t context (t.compile settings context calls) := by
  obtain ⟨us, hrendered, hall⟩ :=
    exists_rendered (context.withTable t.name "compile") t.columns calls
  rw [compile, generate]
  by_cases hd : t.defects.isEmpty = true
  · rw [if_pos hd]
    generalize defineColumns (context.withTable t.name "compile") t.columns calls = o
      at hrendered hall ⊢
    obtain ⟨parts, later, written⟩ := o
    cases parts with
    | error f =>
      exact traced_of_rendered [] hrendered (List.append_nil written).symm (by rintro ⟨⟩) (by simp)
    | ok parts =>
      dsimp only at hrendered hall ⊢
      rw [buildModel]
      cases model settings.rowSuffix t.name t.columns with
      | error e => exact traced_of_rendered [] hrendered rfl (by rintro ⟨⟩) (by simp)
      | ok m =>
        refine traced_of_rendered [.validator m.name t.columns.length,
          .compiled t.name t.columns.length (indexStatements settings t).length] hrendered ?_
          (fun _ => hall rfl) (by simp)
        simp
  · rw [if_neg hd]
    have hnone : Rendered (context.withTable t.name "compile") t.columns [] [] :=
      ⟨[], by simp, Nat.zero_le _, .inl rfl⟩
    refine traced_of_rendered (t.defects.map fun d => .defect t.name d.message) hnone ?_
      (by rintro ⟨⟩) (by simp)
    simp [defectRecords]

end Table

/-- Scopes are a strict stack. After any moves the entries that are open tell the context; a scope
that is left, also because its work failed, gives way to the scopes before it; and a table that is
compiled or loaded, whatever comes of it, leaves them as they were. -/
theorem Log.scopes_strict :
    (∀ moves, DeterminedBy (stillOpen [] moves) (Scopes.after [] moves).current) ∧
    (∀ (s : Scopes) (e : Log.Entry) (inner : List Move) (failed : Bool), Nested inner →
      s.after (.enter e :: inner ++ [.exit failed]) = s) ∧
    (∀ (settings : CompilerSettings) (t : Table) (s : Scopes) (calls : Calls),
      ∃ result later records,
        t.compileScoped settings s calls = (result, later, records, s) ∧
        t.compile settings s.current calls = (result, later, records) ∧
        Table.Traced t s.current (result, later, records)) ∧
    ∀ (path : Path) (e : Tablewright.Entry) (s : Scopes) (calls : Calls),
      Table.loadScoped path e s calls = (Table.load e, calls, [], s) := by
  refine ⟨fun moves => ?_, fun s e inner failed h => ?_, fun settings t s calls => ?_,
    fun path e s calls => Table.loadScoped_eq s calls path e⟩
  · have h := Scopes.after_opening [] moves
    rw [Scopes.opening] at h
    rw [h]
    exact Log.determinedBy_opening (stillOpen [] moves)
  · exact (Nested.block e failed h .nil).after_eq s
  · exact ⟨_, _, _, Table.compileScoped_eq s calls settings t, rfl,
      Table.traced_compile settings s.current t calls⟩

/-- Two scopes inside one that is open, and both are left by one failure. -/
theorem Log.scopes_strict_interrupted :
    Nested [.enter (.ofColumn "email"), .exit true] ∧
    Scopes.after [Context.empty.withTable "users" "deploy"]
      (.enter { Log.Entry.ofTable "users" "compile" with source := some .null } ::
        [.enter (.ofColumn "email"), .exit true] ++ [.exit true]) =
      [Context.empty.withTable "users" "deploy"] := by
  have hinner : Nested [.enter (.ofColumn "email"), .exit true] := .block _ true .nil .nil
  obtain ⟨-, hexit, -⟩ := Log.scopes_strict
  exact ⟨hinner, hexit _ _ _ true hinner⟩

end Tablewright
