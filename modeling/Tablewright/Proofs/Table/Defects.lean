import Mathlib.Data.List.Nodup
import Tablewright.Proofs.Table.Compiled

namespace Tablewright

/-- What an error about the structure of a table carries: its text, the table and the messages. -/
def CompileError.carried? : CompileError → Option (String × String × List String)
  | .structure table defects =>
    some (structureMessage table defects, table, defects.map Defect.message)
  | _ => none

namespace Table

open Log (Context)

/-- Every element of a list, behind those that come before it. -/
def withEarlier (xs : List α) : List (List α × α) :=
  xs.zipIdx.map fun (x, i) => (xs.take i, x)

theorem withEarlier_cons (x : α) (xs : List α) :
    withEarlier (x :: xs) = ([], x) :: (withEarlier xs).map fun p => (x :: p.1, p.2) := by
  simp only [withEarlier, List.zipIdx_cons', List.map_cons, List.map_map, List.take_zero]
  rfl

theorem map_snd_withEarlier (xs : List α) : (withEarlier xs).map (·.2) = xs := by
  induction xs with
  | nil => rfl
  | cons x xs ih =>
    have htail : (withEarlier xs).map ((·.2) ∘ fun p => (x :: p.1, p.2)) = xs := ih
    rw [withEarlier_cons, List.map_cons, List.map_map, htail]

theorem forall_withEarlier_snd {P : α → Prop} (xs : List α) :
    (∀ p ∈ withEarlier xs, P p.2) ↔ ∀ x ∈ xs, P x := by
  rw [← List.forall_mem_map (f := fun p : List α × α => p.2), map_snd_withEarlier]

theorem forall_withEarlier_notMem [DecidableEq β] (key : α → β) (xs : List α) :
    (∀ p ∈ withEarlier xs, key p.2 ∉ p.1.map key) ↔ (xs.map key).Nodup := by
  induction xs with
  | nil => exact iff_of_true (fun _ h => nomatch h) List.nodup_nil
  | cons x xs ih =>
    have hfirst : (∀ p ∈ withEarlier xs, key p.2 ≠ key x) ↔ key x ∉ xs.map key := by
      rw [forall_withEarlier_snd (P := fun y => key y ≠ key x)]
      simp
    rw [withEarlier_cons, List.forall_mem_cons, List.forall_mem_map, List.map_cons,
      List.nodup_cons, ← ih, ← hfirst]
    simp only [List.map_cons, List.map_nil, List.not_mem_nil, not_false_eq_true, true_and,
      List.mem_cons, not_or]
    exact forall₂_and

/-- A walk along a list that reports on each element, given the keys of those before it. -/
theorem eq_flatMap_withEarlier (walk : List κ → List α → List β) (key : α → κ)
    (report : List κ → α → List β) (nil : ∀ seen, walk seen [] = [])
    (cons : ∀ seen x xs, walk seen (x :: xs) = report seen x ++ walk (key x :: seen) xs)
    (seen : List κ) (xs : List α) :
    walk seen xs =
      (withEarlier xs).flatMap fun p => report ((p.1.map key).reverse ++ seen) p.2 := by
  induction xs generalizing seen with
  | nil => exact nil seen
  | cons x xs ih =>
    rw [cons, ih, withEarlier_cons, List.flatMap_cons, List.flatMap_map]
    simp

variable (t : Table)

def columnReport (earlier : List String) (n : String) : List Defect :=
  if n ∈ earlier then [.duplicateColumn n] else []

/-- What is wrong with a part of the primary key, given the parts before it. -/
def keyReport (earlier : List String) (k : String) : List Defect :=
  (if k ∈ t.columnNames then [] else [.unknownKey k])
    ++ if k ∈ earlier then [.repeatedKey k] else []

def indexReport (earlier : List Index) (i : Index) : List Defect :=
  (if i.name ∈ earlier.map (·.name) then [.duplicateIndex i.name] else [])
    ++ (i.columns.filter (· ∉ t.columnNames)).map (.unknownIndexColumn i.name)

theorem columnDefects_eq (names : List String) :
    columnDefects [] names = (withEarlier names).flatMap fun p => columnReport p.1 p.2 := by
  rw [eq_flatMap_withEarlier columnDefects id
    (fun seen n => if seen.contains n then [.duplicateColumn n] else [])
    (fun _ => rfl) (fun _ _ _ => rfl)]
  simp [columnReport]

theorem keyDefects_eq (keys : List String) :
    keyDefects t.columnNames [] keys = (withEarlier keys).flatMap fun p => t.keyReport p.1 p.2 := by
  rw [eq_flatMap_withEarlier (keyDefects t.columnNames) id
    (fun seen k => (if t.columnNames.contains k then [] else [.unknownKey k])
      ++ if seen.contains k then [.repeatedKey k] else [])
    (fun _ => rfl) (fun _ _ _ => rfl)]
  simp [keyReport]

theorem indexDefects_eq (indexes : List Index) :
    indexDefects t.columnNames [] indexes =
      (withEarlier indexes).flatMap fun p => t.indexReport p.1 p.2 := by
  rw [eq_flatMap_withEarlier (indexDefects t.columnNames) Index.name
    (fun seen i => (if seen.contains i.name then [.duplicateIndex i.name] else [])
      ++ (i.columns.filter (!t.columnNames.contains ·)).map (.unknownIndexColumn i.name))
    (fun _ => rfl) (fun _ _ _ => rfl)]
  simp [indexReport]

theorem defects_eq_reports :
    t.defects = ((withEarlier t.columnNames).flatMap fun p => columnReport p.1 p.2)
      ++ ((withEarlier t.primaryKeys).flatMap fun p => t.keyReport p.1 p.2)
      ++ ((withEarlier t.indexes).flatMap fun p => t.indexReport p.1 p.2) := by
  rw [defects, columnDefects_eq, keyDefects_eq, indexDefects_eq]

variable {t}

theorem columnReport_eq_nil_iff {earlier : List String} {n : String} :
    columnReport earlier n = [] ↔ n ∉ earlier := by
  simp [columnReport]

theorem keyReport_eq_nil_iff {earlier : List String} {k : String} :
    t.keyReport earlier k = [] ↔ k ∈ t.columnNames ∧ k ∉ earlier := by
  simp [keyReport]

theorem indexReport_eq_nil_iff {earlier : List Index} {i : Index} :
    t.indexReport earlier i = [] ↔
      i.name ∉ earlier.map (·.name) ∧ ∀ c ∈ i.columns, c ∈ t.columnNames := by
  simp [indexReport]

/-- A table without defects has distinct columns and indexes, and a key without repetition, and
refers to no columns but its own. -/
theorem defects_eq_nil_iff :
    t.defects = [] ↔ t.columnNames.Nodup ∧
      (t.primaryKeys.Nodup ∧ ∀ k ∈ t.primaryKeys, k ∈ t.columnNames) ∧
      (t.indexes.map (·.name)).Nodup ∧ ∀ i ∈ t.indexes, ∀ c ∈ i.columns, c ∈ t.columnNames := by
  have hkeys : t.primaryKeys.Nodup ↔ ∀ p ∈ withEarlier t.primaryKeys, p.2 ∉ p.1 := by
    simpa using (forall_withEarlier_notMem id t.primaryKeys).symm
  have hnames : t.columnNames.Nodup ↔ ∀ p ∈ withEarlier t.columnNames, p.2 ∉ p.1 := by
    simpa using (forall_withEarlier_notMem id t.columnNames).symm
  rw [defects_eq_reports, List.append_eq_nil_iff, List.append_eq_nil_iff,
    List.flatMap_eq_nil_iff, List.flatMap_eq_nil_iff, List.flatMap_eq_nil_iff, hnames, hkeys,
    ← forall_withEarlier_notMem, ← forall_withEarlier_snd t.primaryKeys,
    ← forall_withEarlier_snd t.indexes]
  simp only [columnReport_eq_nil_iff, keyReport_eq_nil_iff, indexReport_eq_nil_iff]
  rw [forall₂_and, forall₂_and]
  tauto

theorem nodup_columnNames (h : t.defects = []) : t.columnNames.Nodup :=
  (defects_eq_nil_iff.mp h).1

theorem primaryKeys_subset (h : t.defects = []) : t.primaryKeys ⊆ t.columnNames :=
  (defects_eq_nil_iff.mp h).2.1.2

def messages (t : Table) : List String := t.defects.map Defect.message

def columnTexts (earlier : List String) (n : String) : List String :=
  if n ∈ earlier then ["Duplicate column '" ++ n ++ "'"] else []

def keyTexts (declared earlier : List String) (k : String) : List String :=
  (if k ∈ declared then [] else ["Primary key references unknown column '" ++ k ++ "'"])
    ++ if k ∈ earlier then ["Primary key lists column '" ++ k ++ "' more than once"] else []

def indexTexts (declared : List String) (earlier : List Index) (i : Index) : List String :=
  (if i.name ∈ earlier.map (·.name) then ["Duplicate index '" ++ i.name ++ "'"] else [])
    ++ (i.columns.filter (· ∉ declared)).map fun c =>
      "Index '" ++ i.name ++ "' references unknown column '" ++ c ++ "'"

theorem map_columnReport (earlier : List String) (n : String) :
    (columnReport earlier n).map Defect.message = columnTexts earlier n := by
  rw [columnReport, columnTexts, apply_ite (List.map _)]
  rfl

theorem map_keyReport (earlier : List String) (k : String) :
    (t.keyReport earlier k).map Defect.message = keyTexts t.columnNames earlier k := by
  rw [keyReport, keyTexts, List.map_append, apply_ite (List.map _), apply_ite (List.map _)]
  rfl

theorem map_indexReport (earlier : List Index) (i : Index) :
    (t.indexReport earlier i).map Defect.message = indexTexts t.columnNames earlier i := by
  have hcolumns : Defect.message ∘ Defect.unknownIndexColumn i.name = fun c =>
      "Index '" ++ i.name ++ "' references unknown column '" ++ c ++ "'" := rfl
  rw [indexReport, indexTexts, List.map_append, List.map_map, hcolumns, apply_ite (List.map _)]
  rfl

theorem messages_eq_texts (t : Table) :
    t.messages = ((withEarlier t.columnNames).flatMap fun p => columnTexts p.1 p.2)
      ++ ((withEarlier t.primaryKeys).flatMap fun p => keyTexts t.columnNames p.1 p.2)
      ++ ((withEarlier t.indexes).flatMap fun p => indexTexts t.columnNames p.1 p.2) := by
  rw [messages, defects_eq_reports, List.map_append, List.map_append, List.map_flatMap,
    List.map_flatMap, List.map_flatMap]
  simp only [map_columnReport, map_keyReport, map_indexReport]

/-- What is said of a table is, in this order, one text for each name of a column that comes again,
for each part of the key that is no column and each that comes again, and for each index whose name
comes again and each of its columns that is none of the table's. When anything is said, neither the
table nor its indexes get a statement, and the error carries exactly these texts. -/
theorem exactly_defects (t : Table) :
    (t.messages = ((withEarlier t.columnNames).flatMap fun p => columnTexts p.1 p.2)
      ++ ((withEarlier t.primaryKeys).flatMap fun p => keyTexts t.columnNames p.1 p.2)
      ++ ((withEarlier t.indexes).flatMap fun p => indexTexts t.columnNames p.1 p.2)) ∧
    (t.messages = [] ↔ t.columnNames.Nodup ∧
      (t.primaryKeys.Nodup ∧ ∀ k ∈ t.primaryKeys, k ∈ t.columnNames) ∧
      (t.indexes.map (·.name)).Nodup ∧ ∀ i ∈ t.indexes, ∀ c ∈ i.columns, c ∈ t.columnNames) ∧
    (t.messages ≠ [] → ∀ (settings : CompilerSettings) (context : Context), ∃ e : CompileError,
      e.carried? = some ("Invalid table '" ++ t.name ++ "': " ++ "; ".intercalate t.messages,
        t.name, t.messages) ∧
      t.generateIndexes settings context = (.error e, defectRecords context t) ∧
      ∀ calls,
        t.generate settings context calls = (.error e, calls, defectRecords context t) ∧
        t.compile settings context calls =
          (.error e, calls, defectRecords (context.withTable t.name "compile") t)) := by
  have hempty : t.messages = [] ↔ t.defects = [] := List.map_eq_nil_iff
  refine ⟨messages_eq_texts t, hempty.trans defects_eq_nil_iff, fun h settings context => ?_⟩
  have hd : t.defects ≠ [] := fun he => h (hempty.mpr he)
  exact ⟨.structure t.name t.defects, rfl, generateIndexes_of_defects settings context hd,
    fun calls => ⟨generate_of_defects settings context hd calls,
      compile_of_defects settings context hd calls⟩⟩

def tangled : Table where
  name := "notes"
  columns := ["id", "id", "text", "id"].map fun n => ⟨n, .scalar [] .bigint, false, none⟩
  primaryKeys := ["key", "id", "key", "id"]
  indexes := [⟨"byText", ["text", "body", "body"], false, none⟩, ⟨"byText", ["id"], true, none⟩]
  description := none

theorem exactly_defects_tangled :
    tangled.messages = ["Duplicate column 'id'", "Duplicate column 'id'",
      "Primary key references unknown column 'key'",
      "Primary key references unknown column 'key'",
      "Primary key lists column 'key' more than once",
      "Primary key lists column 'id' more than once",
      "Index 'byText' references unknown column 'body'",
      "Index 'byText' references unknown column 'body'", "Duplicate index 'byText'"] ∧
    ∃ e, (tangled.compile ⟨false, "Row"⟩ .empty []).1 = .error e ∧
      e.carried?.map (·.2) = some ("notes", tangled.messages) := by
  have hm : tangled.messages ≠ [] := by decide +kernel
  obtain ⟨-, -, herror⟩ := exactly_defects tangled
  obtain ⟨e, hcarried, -, hrun⟩ := herror hm ⟨false, "Row"⟩ .empty
  refine ⟨by decide +kernel, e, ?_, ?_⟩
  · rw [(hrun []).2]
  · rw [hcarried]
    rfl

end Table

end Tablewright
