import Tablewright.Proofs.Rule.Layers
import Tablewright.Proofs.Sql.Statement
import Tablewright.Proofs.Table.Defects

namespace Tablewright

open Log (Context Record)

/-- Every number in the definitions of columns can be written. -/
def Sql.Written (cs : List Column) (us : List Unwrapped) : Prop :=
  ∀ p ∈ cs.zip us, Sql.isWritable p.1 p.2 = true

instance (cs : List Column) (us : List Unwrapped) : Decidable (Sql.Written cs us) :=
  inferInstanceAs (Decidable (∀ p ∈ cs.zip us, Sql.isWritable p.1 p.2 = true))

theorem Sql.written_cons {c : Column} {cs : List Column} {u : Unwrapped} {us : List Unwrapped} :
    Written (c :: cs) (u :: us) ↔ isWritable c u = true ∧ Written cs us :=
  List.forall_mem_cons

/-- The texts of columns and what is reported of them, when their rules are unwrapped to these. -/
theorem Sql.mapM_defineColumn {cs : List Column} {us : List Unwrapped} {calls later : Calls}
    (h : cs.mapM (·.rule.unwrap) calls = (.ok us, later)) (hw : Written cs us) :
    cs.mapM Sql.defineColumn calls =
      (.ok (List.zipWith (fun c u => (Sql.columnText c u, Sql.columnEvents c u)) cs us),
        later) := by
  induction cs generalizing us calls with
  | nil =>
    cases h
    rfl
  | cons c cs ih =>
    obtain ⟨u, mid, vs, hu, hvs, rfl⟩ := Run.mapM_cons_eq_ok h
    obtain ⟨hfirst, hrest⟩ := written_cons.mp hw
    have hc := defineColumn_of_writable hu hfirst
    rw [List.mapM_cons, Run.bind_ok hc, Run.bind_ok (ih hvs hrest)]
    rfl

namespace Table

theorem ne_nil_of_someItems {r : Read (List α)} {xs : List α} (h : someItems r = .ok xs) :
    xs ≠ [] := by
  rintro rfl
  unfold someItems at h
  split at h
  · cases h
  · exact absurd h (by assumption)

theorem read_of_readModel {title : String} {known : List String} {read : Entries → Read α}
    {v : Value} {a : α} (h : readModel title known read v = .ok a) :
    ∃ entries, read entries = .ok a := by
  unfold readModel at h
  split at h
  · rename_i entries
    unfold Read.andIssues at h
    split at h
    · cases h
      exact ⟨entries, by assumption⟩
    · cases h
    · cases h
  · cases h

theorem columns_ne_nil_of_read {fs : Functions} {v : Value} {t : Table}
    (h : Table.read fs v = .ok t) :
    t.columns ≠ [] := by
  obtain ⟨entries, he⟩ := read_of_readModel h
  obtain ⟨withIndexes, _, hi, -, rfl⟩ := Read.both_eq_ok.mp he
  obtain ⟨withKeys, _, hk, -, rfl⟩ := Read.both_eq_ok.mp hi
  obtain ⟨withColumns, _, hc, -, rfl⟩ := Read.both_eq_ok.mp hk
  obtain ⟨_, columns, -, hs, rfl⟩ := Read.both_eq_ok.mp hc
  rw [Read.fieldOr, Read.under_eq_ok] at hs
  split at hs
  · cases hs
  · exact ne_nil_of_someItems hs

theorem defineColumns_eq {cs : List Column} {us : List Unwrapped} {calls later : Calls}
    (context : Context) (h : cs.mapM (·.rule.unwrap) calls = (.ok us, later))
    (hw : Sql.Written cs us) : ∃ records, defineColumns context cs calls =
      (.ok (List.zipWith Sql.columnText cs us), later, records) := by
  induction cs generalizing us calls with
  | nil =>
    cases h
    exact ⟨[], rfl⟩
  | cons c cs ih =>
    obtain ⟨u, mid, vs, hu, hvs, rfl⟩ := Run.mapM_cons_eq_ok h
    obtain ⟨hfirst, hrest⟩ := Sql.written_cons.mp hw
    obtain ⟨records, hr⟩ := ih hvs hrest
    rw [defineColumns, Sql.defineColumn_of_writable hu hfirst]
    dsimp only
    rw [hr]
    exact ⟨_, rfl⟩

/-- The first column with a number that cannot be written ends the definition of all. -/
theorem defineColumns_of_unwritten {cs : List Column} {us : List Unwrapped} {calls later : Calls}
    (context : Context) (h : cs.mapM (·.rule.unwrap) calls = (.ok us, later))
    (hw : ¬Sql.Written cs us) : ∃ last records, defineColumns context cs calls =
      (.error .tooManyDigits, last, records) := by
  induction cs generalizing us calls with
  | nil =>
    cases h
    exact absurd (fun p hp => absurd hp List.not_mem_nil) hw
  | cons c cs ih =>
    obtain ⟨u, mid, vs, hu, hvs, rfl⟩ := Run.mapM_cons_eq_ok h
    rw [defineColumns]
    cases hfirst : Sql.isWritable c u with
    | false =>
      rw [Sql.defineColumn_of_unwritable hu hfirst]
      exact ⟨_, _, rfl⟩
    | true =>
      obtain ⟨last, records, hr⟩ := ih hvs fun hrest => hw (Sql.written_cons.mpr ⟨hfirst, hrest⟩)
      rw [Sql.defineColumn_of_writable hu hfirst]
      dsimp only
      rw [hr]
      exact ⟨_, _, rfl⟩

/-- The names in a table hold no character that matters to a cut. -/
def Neutral (t : Table) : Prop :=
  t.name.toList.all Sql.isNeutral = true ∧ ∀ c ∈ t.columns,
    c.name.toList.all Sql.isNeutral = true ∧ ∀ k ∈ c.references, Sql.NeutralReference k

theorem allKept_parts {t : Table} (h : t.defects = []) (hn : t.Neutral) (us : List Unwrapped) :
    Sql.AllKept 0
      (List.zipWith Sql.columnText t.columns us ++ (Sql.keyClause? t.primaryKeys).toList)
      ((t.columns.zip us).flatMap fun p => Sql.columnLiterals p.1 p.2) := by
  have hkeys : ∀ k ∈ t.primaryKeys, k.toList.all Sql.isNeutral = true := by
    intro k hk
    obtain ⟨c, hc, rfl⟩ := List.mem_map.mp (primaryKeys_subset h hk)
    exact (hn.2 c hc).1
  have hcolumns : Sql.AllKept 0 ((t.columns.zip us).map fun p => Sql.columnText p.1 p.2)
      ((t.columns.zip us).flatMap fun p => Sql.columnLiterals p.1 p.2) := by
    refine Sql.AllKept.map fun p hp => ?_
    obtain ⟨hname, hreferences⟩ := hn.2 p.1 (List.of_mem_zip hp).1
    exact Sql.kept_columnText hname hreferences p.2
  have hall := hcolumns.append (Sql.allKept_keyClause hkeys)
  rw [List.append_nil, List.map_zip_eq_zipWith] at hall
  exact hall

/-- The statement of a table can be taken apart again: into the definitions of its columns in
order and its key, and into the values that stand between quotes, whatever these values hold. There
is one unless a number in it has too many digits to be written. -/
theorem cut?_generate {t : Table} (hd : t.defects = []) (hc : t.columns ≠ []) (hn : t.Neutral)
    (hf : ∀ c ∈ t.columns, ∀ f ∈ c.rule.factories, f.Supplies)
    (settings : CompilerSettings) (context : Context) (calls : Calls) :
    ∃ us later, t.columns.mapM (·.rule.unwrap) calls = (.ok us, later) ∧
      (¬Sql.Written t.columns us → ∃ last records,
        t.generate settings context calls = (.error (.fault .tooManyDigits), last, records)) ∧
      (Sql.Written t.columns us → ∃ records text b,
        t.columns.mapM Sql.defineColumn calls =
          (.ok (List.zipWith (fun c u => (Sql.columnText c u, Sql.columnEvents c u)) t.columns us),
            later) ∧
        t.generate settings context calls = (.ok text, later, records) ∧
        Sql.cut? 0 (Sql.behindParenthesis text.toList) = some b ∧
        b.parts = Sql.onLines (List.zipWith Sql.columnText t.columns us
          ++ (Sql.keyClause? t.primaryKeys).toList) ∧
        b.literals = ((t.columns.zip us).flatMap fun p => Sql.columnLiterals p.1 p.2) ∧
        b.rest = [';']) := by
  obtain ⟨us, later, hus⟩ := Run.Returns.mapM
    (f := fun c : Column => c.rule.unwrap) (fun c hc => Rule.returns_unwrap (hf c hc)) calls
  refine ⟨us, later, hus, fun hw => ?_, fun hw => ?_⟩
  · obtain ⟨last, records, hr⟩ := defineColumns_of_unwritten context hus hw
    rw [generate, hd, hr]
    exact ⟨last, records, rfl⟩
  obtain ⟨records, hr⟩ := defineColumns_eq context hus hw
  have hne : List.zipWith Sql.columnText t.columns us
      ++ (Sql.keyClause? t.primaryKeys).toList ≠ [] := by
    cases hcs : t.columns with
    | nil => exact absurd hcs hc
    | cons c cs =>
      rw [hcs] at hus
      obtain ⟨u, _, vs, -, -, rfl⟩ := Run.mapM_cons_eq_ok hus
      simp
  obtain ⟨b, hb, hparts, hliterals, hrest⟩ :=
    Sql.cut?_tableStatement settings.ifNotExists hn.1 (allKept_parts hd hn us) hne
  refine ⟨records, _, b, Sql.mapM_defineColumn hus hw, ?_, hb, hparts, hliterals, hrest⟩
  rw [generate, hd, hr]
  rfl

def hostile : Table where
  name := "notes"
  columns := [
    ⟨"id", .layer [] (.default .null (some (.ofSource 0 fun n => .ok (.int (7 + n)))))
      (.scalar [] .bigint), false, none⟩,
    ⟨"note", .layer [] .optional (.layer [] (.default (.text "it's), (x") none)
      (.scalar [] (.string (.plain none)))), true, none⟩,
    ⟨"state", .scalar [] (.enum ["','", ");\n  "]), false,
      some ⟨"states", "name", some .cascade, none⟩⟩]
  primaryKeys := ["id", "state"]
  indexes := []
  description := none

theorem cut?_generate_hostile :
    hostile.defects = [] ∧ hostile.columns ≠ [] ∧ hostile.Neutral ∧
    (∀ c ∈ hostile.columns, ∀ f ∈ c.rule.factories, f.Supplies) ∧
    ∃ later records text b,
      hostile.generate ⟨false, "Row"⟩ .empty [] = (.ok text, later, records) ∧
      Sql.cut? 0 (Sql.behindParenthesis text.toList) = some b ∧
      b.parts = ["\n  id BIGINT NOT NULL DEFAULT '7'".toList,
        "\n  note TEXT DEFAULT 'it''s), (x' UNIQUE".toList,
        ("\n  state TEXT NOT NULL CHECK(state IN (''',''', ');\n  '))"
          ++ " REFERENCES states(name) ON DELETE CASCADE").toList,
        "\n  PRIMARY KEY (id, state)\n".toList] ∧
      b.literals = ["7".toList, "it's), (x".toList, "','".toList, ");\n  ".toList] := by
  have hn : hostile.Neutral := by
    refine ⟨rfl, ?_⟩
    intro c hc
    simp only [hostile, List.mem_cons, List.not_mem_nil, or_false] at hc
    obtain rfl | rfl | rfl := hc
    · exact ⟨rfl, by simp⟩
    · exact ⟨rfl, by simp⟩
    · refine ⟨rfl, ?_⟩
      rintro k ⟨⟩
      exact ⟨rfl, rfl⟩
  have hf : ∀ c ∈ hostile.columns, ∀ f ∈ c.rule.factories, f.Supplies := by
    intro c hc f hf
    simp only [hostile, List.mem_cons, List.not_mem_nil, or_false] at hc
    obtain rfl | rfl | rfl := hc
    · cases hf with
      | head => exact fun n => ⟨_, rfl⟩
      | tail _ hf => cases hf
    · cases hf
    · cases hf
  have hd : hostile.defects = [] := by decide +kernel
  have hc : hostile.columns ≠ [] := by simp [hostile]
  obtain ⟨us, later, hus, -, hall⟩ := cut?_generate hd hc hn hf ⟨false, "Row"⟩ .empty []
  cases hus
  obtain ⟨records, text, b, -, hg, hb, hp, hl, -⟩ := hall (by decide +kernel)
  refine ⟨hd, hc, hn, hf, [0], records, text, b, hg, hb, ?_, ?_⟩
  · rw [hp]
    decide +kernel
  · rw [hl]
    decide +kernel

end Table

end Tablewright
