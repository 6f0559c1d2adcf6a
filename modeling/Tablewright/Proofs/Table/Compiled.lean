import Tablewright.Proofs.Sql.Definition
import Tablewright.Table.Compiled

namespace Tablewright.Table

open Log (Context Record)

variable (settings : CompilerSettings) (context : Context)

theorem generate_eq {t : Table} (h : t.defects = []) (calls : Calls) :
    t.generate settings context calls =
      ((defineColumns context t.columns calls).1.map (fun parts =>
          Sql.tableStatement settings.ifNotExists t.name
            (parts ++ (Sql.keyClause? t.primaryKeys).toList)) |>.mapError .fault,
        (defineColumns context t.columns calls).2) := by
  rw [generate, h, List.isEmpty_nil, if_pos rfl]
  generalize defineColumns context t.columns calls = o
  obtain ⟨parts, after, records⟩ := o
  cases parts <;> rfl

/-- A table that contradicts itself has no statement, and none of its functions is called. -/
theorem generate_of_defects {t : Table} (h : t.defects ≠ []) (calls : Calls) :
    t.generate settings context calls =
      (.error (.structure t.name t.defects), calls, defectRecords context t) := by
  have hd : ¬t.defects.isEmpty = true := by simpa using h
  rw [generate, if_neg hd]

theorem generateIndexes_of_defects {t : Table} (h : t.defects ≠ []) :
    t.generateIndexes settings context =
      (.error (.structure t.name t.defects), defectRecords context t) := by
  have hd : ¬t.defects.isEmpty = true := by simpa using h
  rw [generateIndexes, if_neg hd]

theorem compile_of_defects {t : Table} (h : t.defects ≠ []) (calls : Calls) :
    t.compile settings context calls =
      (.error (.structure t.name t.defects), calls,
        defectRecords (context.withTable t.name "compile") t) := by
  rw [compile, generate_of_defects settings _ h]

theorem model_eq_ok {suffix name : String} {columns : List Column} {m : Row.Model} :
    model suffix name columns = .ok m ↔
      '\x00' ∉ suffix.toList ∧ rowModel? suffix name columns = some m := by
  rw [model]
  by_cases hs : suffix.toList.contains '\x00' = true
  · rw [if_pos hs]
    simp_all
  · rw [if_neg hs]
    cases rowModel? suffix name columns <;> simp_all

theorem compile_eq {t : Table} (h : t.defects = []) (calls : Calls) :
    ((t.compile settings context calls).1, (t.compile settings context calls).2.1) =
      (match (defineColumns (context.withTable t.name "compile") t.columns calls).1 with
        | .error f => .error (.fault f)
        | .ok parts =>
          (model settings.rowSuffix t.name t.columns).map fun m =>
            ⟨t.name, Sql.tableStatement settings.ifNotExists t.name
              (parts ++ (Sql.keyClause? t.primaryKeys).toList), indexStatements settings t, m⟩,
        (defineColumns (context.withTable t.name "compile") t.columns calls).2.1) := by
  rw [compile, generate_eq settings _ h, buildModel]
  generalize defineColumns (context.withTable t.name "compile") t.columns calls = o
  obtain ⟨parts, after, records⟩ := o
  cases parts with
  | error f => rfl
  | ok parts => cases model settings.rowSuffix t.name t.columns <;> rfl

variable {settings context}

theorem exists_of_defineColumns {cs : List Column} {calls later : Calls} {texts : List String}
    {records : List Record} (h : defineColumns context cs calls = (.ok texts, later, records)) :
    ∃ us, cs.mapM (·.rule.unwrap) calls = (.ok us, later) ∧
      texts = List.zipWith Sql.columnText cs us := by
  induction cs generalizing calls texts records with
  | nil =>
    cases h
    exact ⟨[], rfl, rfl⟩
  | cons c cs ih =>
    rw [defineColumns] at h
    cases hc : Sql.defineColumn c calls with
    | mk result mid =>
      rw [hc] at h
      cases result with
      | error f => cases h
      | ok defined =>
        obtain ⟨text, events⟩ := defined
        obtain ⟨u, hu, -, rfl, rfl⟩ := Sql.exists_of_defineColumn hc
        dsimp only at h
        generalize hrest : defineColumns context cs mid = o at h
        obtain ⟨parts, after, written⟩ := o
        cases parts with
        | error f => cases h
        | ok parts =>
          cases h
          obtain ⟨us, hus, rfl⟩ := ih hrest
          refine ⟨u :: us, ?_, rfl⟩
          rw [List.mapM_cons, Run.bind_ok hu, Run.bind_ok hus]
          rfl

theorem defects_of_compile {t : Table} {calls later : Calls} {compiled : Compiled}
    {records : List Record}
    (h : t.compile settings context calls = (.ok compiled, later, records)) : t.defects = [] := by
  by_cases hd : t.defects = []
  · exact hd
  · rw [compile_of_defects settings context hd] at h
    cases h

theorem exists_of_compile {t : Table} {calls later : Calls} {compiled : Compiled}
    {records : List Record}
    (h : t.compile settings context calls = (.ok compiled, later, records)) :
    ∃ us m, t.columns.mapM (·.rule.unwrap) calls = (.ok us, later) ∧
      rowModel? settings.rowSuffix t.name t.columns = some m ∧
      compiled = ⟨t.name, Sql.tableStatement settings.ifNotExists t.name
        (List.zipWith Sql.columnText t.columns us ++ (Sql.keyClause? t.primaryKeys).toList),
        indexStatements settings t, m⟩ := by
  have heq := compile_eq settings context (defects_of_compile h) calls
  rw [h] at heq
  generalize hd : defineColumns (context.withTable t.name "compile") t.columns calls = o at heq
  obtain ⟨parts, mid, written⟩ := o
  obtain ⟨hfst, rfl⟩ := Prod.mk.inj heq
  cases parts with
  | error f => cases hfst
  | ok parts =>
    obtain ⟨us, hus, rfl⟩ := exists_of_defineColumns hd
    cases hm : model settings.rowSuffix t.name t.columns with
    | error e =>
      rw [hm] at hfst
      cases hfst
    | ok m =>
      rw [hm] at hfst
      exact ⟨us, m, hus, (model_eq_ok.mp hm).2, Except.ok.inj hfst⟩

def accepted? (settings : CompilerSettings) (context : Context) (t : Table) (row : Value) :
    Option (List (String × Value)) :=
  (t.compile settings context []).1.toOption.bind fun compiled =>
    (compiled.validate row (t.compile settings context []).2.1).1.toOption.bind (·.toOption)

theorem exists_of_accepted? {t : Table} {row : Value} {out : List (String × Value)}
    (h : accepted? settings context t row = some out) :
    ∃ compiled later records after,
      t.compile settings context [] = (.ok compiled, later, records) ∧
      compiled.validate row later = (.ok (.ok out), after) := by
  rw [accepted?] at h
  obtain ⟨compiled, hcompile, h⟩ := Option.bind_eq_some_iff.mp h
  obtain ⟨result, hresult, hout⟩ := Option.bind_eq_some_iff.mp h
  generalize t.compile settings context [] = o at hcompile hresult ⊢
  obtain ⟨first, later, records⟩ := o
  cases first with
  | error e => cases hcompile
  | ok c =>
    cases hcompile
    generalize hv : compiled.validate row later = run at hresult
    obtain ⟨second, after⟩ := run
    cases second with
    | error f => cases hresult
    | ok result =>
      cases hresult
      cases result with
      | error es => cases hout
      | ok columns =>
        cases hout
        exact ⟨compiled, later, records, after, rfl, hv⟩

end Tablewright.Table
