import Tablewright.Proofs.Log.Scopes
import Tablewright.Proofs.Rule.Run
import Tablewright.Table.Scoped

namespace Tablewright

open Log (Context Event Record Scoped Scopes)

namespace Log.Scoped

theorem id_bind (m : Scoped ε α) : (m >>= fun a => Pure.pure a) = m := by
  funext s calls
  change Scoped.bind m Scoped.pure s calls = _
  cases h : m s calls with
  | mk result rest => cases result <;> simp [Scoped.bind, Scoped.pure, h]

theorem assoc (m : Scoped ε α) (f : α → Scoped ε β) (g : β → Scoped ε γ) :
    m >>= f >>= g = m >>= fun a => f a >>= g := by
  funext s calls
  change Scoped.bind (Scoped.bind m f) g s calls =
    Scoped.bind m (fun a => Scoped.bind (f a) g) s calls
  cases h : m s calls with
  | mk result rest =>
    cases result with
    | error e => simp [Scoped.bind, h]
    | ok a =>
      obtain ⟨later, records, after⟩ := rest
      cases hf : f a after later with
      | mk second more => cases second <;> simp [Scoped.bind, h, hf]

instance : LawfulMonad (Scoped ε) :=
  LawfulMonad.mk' (Scoped ε) (fun m => id_bind m) (fun _ _ => rfl) assoc

variable {s after : Scopes} {calls later : Calls} {records : List Record}

theorem bind_ok {m : Scoped ε α} {next : α → Scoped ε β} {a : α}
    (h : m s calls = (.ok a, later, records, after)) :
    (m >>= next) s calls =
      ((next a after later).1, (next a after later).2.1, records ++ (next a after later).2.2.1,
        (next a after later).2.2.2) := by
  change Scoped.bind m next s calls = _
  simp [Scoped.bind, h]

theorem bind_error {m : Scoped ε α} {next : α → Scoped ε β} {e : ε}
    (h : m s calls = (.error e, later, records, after)) :
    (m >>= next) s calls = (.error e, later, records, after) := by
  change Scoped.bind m next s calls = _
  simp [Scoped.bind, h]

/-- Work that leaves its scope as it was leaves the scopes around it as they were, whether it ends
well or fails. -/
theorem within_eq {e : Log.Entry} {body : Scoped ε α} {result : Except ε α}
    (h : body (s.enter e) calls = (result, later, records, s.enter e)) :
    within e body s calls = (result, later, records, s) := by
  simp [within, h]

theorem forM_report (events : List Event) :
    (events.forM report : Scoped ε Unit) s calls =
      (.ok (), calls, events.map (·.record s.current), s) := by
  induction events with
  | nil => rfl
  | cons e es ih =>
    have he : (report e : Scoped ε Unit) s calls = (.ok (), calls, [e.record s.current], s) := rfl
    change (report e >>= fun _ => es.forM report) s calls = _
    rw [bind_ok he, ih]
    rfl

end Log.Scoped

namespace Table

open Log.Scoped

variable (s : Scopes) (calls : Calls)

theorem check_eq (t : Table) :
    t.check s calls =
      if t.defects.isEmpty then (.ok (), calls, [], s)
      else (.error (.structure t.name t.defects), calls, defectRecords s.current t, s) := by
  unfold check
  split
  · rfl
  · rw [bind_ok (forM_report _), List.map_map]
    simp [Scoped.fail, defectRecords, Function.comp_def]

theorem defineScoped_eq (c : Column) :
    defineScoped c s calls =
      match Sql.defineColumn c calls with
      | (.error f, later) =>
        (.error (.fault f), later,
          (Sql.failureEvents c calls).map (·.record (s.current.withColumn c.name)), s)
      | (.ok (text, events), later) =>
        (.ok text, later, events.map (·.record (s.current.withColumn c.name)), s) := by
  unfold defineScoped Sql.defineColumn Sql.failureEvents
  cases hu : c.rule.unwrap calls with
  | mk result later =>
    have hrun : Scoped.ofRun CompileError.fault c.rule.unwrap (s.enter (.ofColumn c.name)) calls =
        (result.mapError .fault, later, [], s.enter (.ofColumn c.name)) := by
      simp [Scoped.ofRun, hu]
    cases result with
    | error f =>
      rw [Run.bind_error hu]
      exact within_eq (bind_error hrun)
    | ok u =>
      rw [Run.bind_ok hu]
      by_cases hw : Sql.isWritable c u = true
      · rw [if_pos hw]
        refine within_eq ?_
        rw [bind_ok hrun, bind_ok (forM_report _), if_pos hw]
        simp [Pure.pure, Scoped.pure, Scoped.bind, Bind.bind, Scoped.report, Context.withColumn,
          Sql.columnEvents]
      · rw [if_neg hw]
        refine within_eq ?_
        rw [bind_ok hrun, bind_ok (forM_report _), if_neg hw]
        simp [Scoped.fail, Context.withColumn]

theorem mapM_defineScoped (cs : List Column) (calls : Calls) :
    cs.mapM defineScoped s calls =
      ((defineColumns s.current cs calls).1.mapError .fault, (defineColumns s.current cs calls).2.1,
        (defineColumns s.current cs calls).2.2, s) := by
  induction cs generalizing calls with
  | nil => rfl
  | cons c cs ih =>
    rw [List.mapM_cons, defineColumns]
    have hc := defineScoped_eq s calls c
    cases hd : Sql.defineColumn c calls with
    | mk result later =>
      rw [hd] at hc
      cases result with
      | error f => exact bind_error hc
      | ok defined =>
        obtain ⟨text, events⟩ := defined
        have hrest := ih later
        dsimp only at hc ⊢
        generalize defineColumns s.current cs later = o at hrest ⊢
        obtain ⟨parts, last, records⟩ := o
        rw [bind_ok hc]
        cases parts with
        | error f =>
          rw [bind_error hrest]
          rfl
        | ok parts =>
          rw [bind_ok hrest]
          simp [Pure.pure, Scoped.pure]
          rfl

theorem generateScoped_eq (settings : CompilerSettings) (t : Table) :
    t.generateScoped settings s calls =
      ((t.generate settings s.current calls).1, (t.generate settings s.current calls).2.1,
        (t.generate settings s.current calls).2.2, s) := by
  have hcheck := check_eq s calls t
  unfold generateScoped generate
  by_cases hd : t.defects.isEmpty = true
  · rw [if_pos hd] at hcheck ⊢
    have hcolumns := mapM_defineScoped s t.columns calls
    rw [bind_ok hcheck]
    generalize defineColumns s.current t.columns calls = o at hcolumns ⊢
    obtain ⟨parts, later, records⟩ := o
    cases parts with
    | error f =>
      rw [bind_error hcolumns]
      rfl
    | ok parts =>
      rw [bind_ok hcolumns]
      simp [Pure.pure, Scoped.pure]
  · rw [if_neg hd] at hcheck ⊢
    exact bind_error hcheck

theorem buildScoped_eq (suffix name : String) (columns : List Column) :
    buildScoped suffix name columns s calls =
      ((buildModel suffix s.current name columns).1, calls,
        (buildModel suffix s.current name columns).2, s) := by
  unfold buildScoped buildModel
  cases model suffix name columns <;> rfl

/-- Compiling among scopes is compiling in the innermost one, and leaves them as they were. -/
theorem compileScoped_eq (settings : CompilerSettings) (t : Table) :
    t.compileScoped settings s calls =
      ((t.compile settings s.current calls).1, (t.compile settings s.current calls).2.1,
        (t.compile settings s.current calls).2.2, s) := by
  apply within_eq
  have hgenerate := generateScoped_eq (s.enter (.ofTable t.name "compile")) calls settings t
  have hcurrent : (s.enter (.ofTable t.name "compile")).current =
    s.current.withTable t.name "compile" := rfl
  rw [hcurrent] at hgenerate
  rw [compile]
  generalize t.generate settings (s.current.withTable t.name "compile") calls = o at hgenerate ⊢
  obtain ⟨definition, later, written⟩ := o
  cases definition with
  | error e => exact bind_error hgenerate
  | ok definition =>
    have hbuild := buildScoped_eq (s.enter (.ofTable t.name "compile")) later settings.rowSuffix
      t.name t.columns
    rw [hcurrent] at hbuild
    rw [bind_ok hgenerate]
    dsimp only at hbuild ⊢
    generalize buildModel settings.rowSuffix (s.current.withTable t.name "compile") t.name
      t.columns = b at hbuild ⊢
    obtain ⟨model, built⟩ := b
    cases model with
    | error e => rw [bind_error hbuild]
    | ok model =>
      rw [bind_ok hbuild, List.append_assoc]
      rfl

theorem loadScoped_eq (path : Path) (e : Tablewright.Entry) :
    loadScoped path e s calls = (load e, calls, [], s) := by
  apply within_eq
  cases load e <;> rfl

end Table

end Tablewright
