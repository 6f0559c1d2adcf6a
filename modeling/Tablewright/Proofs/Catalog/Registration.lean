import Tablewright.Proofs.Catalog.Requests

namespace Tablewright

open Log (Context)

def Source.fault? (source : Source) (folder : Option Entry) : Option Yaml.Fault :=
  folder.bind fun e => (source.files e).findSome? (·.2.fault?)

def Source.definition? (source : Source) (folder : Option Entry) (name : String) : Option Table :=
  folder.bind fun e =>
    ((Catalog.defined (source.files e)).map (·.2)).reverse.find? (·.name == name)

/-- What the files of a folder leave of a table that was there before they were looked at. -/
def Source.standsFor (source : Source) (folder : Option Entry) (t : Table) :
    Except CatalogError Table :=
  match source.fault? folder with
  | some f => .error (.fault f)
  | none => .ok ((source.definition? folder t.name).getD t)

theorem Source.standsFor_eq_ok_self {source : Source} {folder : Option Entry} {t : Table} :
    source.standsFor folder t = .ok t ↔
      source.fault? folder = none ∧ ∀ u, source.definition? folder t.name = some u → u = t := by
  rw [standsFor]
  cases source.fault? folder with
  | some f => simp
  | none => cases source.definition? folder t.name <;> simp

namespace Catalog

section

variable (context : Context)

theorem loadFiles_fst (files : List (Path × Entry)) (cache : List (String × Table)) :
    (loadFiles context files cache).1 = match files.findSome? (·.2.fault?) with
      | some f => .error f
      | none => .ok (defined files).length := by
  induction files generalizing cache with
  | nil => rfl
  | cons f fs ih =>
    obtain ⟨path, e⟩ := f
    rw [List.findSome?_cons]
    cases hf : e.fault? with
    | some fault => rw [loadFiles_cons_fatal context hf]
    | none =>
      dsimp only
      cases hl : Table.load e with
      | ok t =>
        rw [loadFiles_cons_ok context hl, ih, defined_cons_ok hl]
        cases fs.findSome? (·.2.fault?) <;> rfl
      | error err =>
        rw [loadFiles_cons_error context hl (Entry.mild_iff.mpr hf err hl), ih,
          defined_cons_error hl]

variable (source : Source)

theorem fault?_eq_none_iff {folder : Option Entry} : source.fault? folder = none ↔
    ∀ e, folder = some e → ∀ f ∈ source.files e, f.2.Mild := by
  cases folder with
  | none => exact iff_of_true rfl (by rintro e ⟨⟩)
  | some e =>
    rw [Source.fault?, Option.bind_some, List.findSome?_eq_none_iff]
    constructor
    · rintro h e ⟨⟩ f hf
      exact Entry.mild_iff.mpr (h f hf)
    · exact fun h f hf => Entry.mild_iff.mp (h e rfl f hf)

theorem loadAll_of_fault? {folder : Option Entry} {f : Yaml.Fault}
    (h : source.fault? folder = some f) (c : Catalog) :
    (loadAll source folder context c).1 = .error (.fault f) := by
  cases folder with
  | none => cases h
  | some e =>
    have hfiles : (source.files e).findSome? (·.2.fault?) = some f := h
    have hfst := loadFiles_fst context (source.files e) c.cache
    rw [hfiles] at hfst
    rw [loadAll]
    generalize loadFiles context (source.files e) c.cache = loaded at hfst ⊢
    obtain ⟨count, cache, records⟩ := loaded
    cases hfst
    rfl

theorem lookup_loadAll {folder : Option Entry} (h : source.fault? folder = none) (c : Catalog)
    (name : String) :
    (loadAll source folder context c).2.1.cache.lookup name =
      (source.definition? folder name).or (c.cache.lookup name) := by
  cases folder with
  | none => rfl
  | some e =>
    rw [loadAll_some source context ((fault?_eq_none_iff source).mp h e rfl)]
    exact lookup_insertAll ..

theorem get_of_lookup (folder : Option Entry) {c : Catalog} {t : Table}
    (h : c.cache.lookup t.name = some t) :
    (get source folder context t.name c).1 =
      if c.isLoaded then .ok t else source.standsFor folder t := by
  cases hl : c.isLoaded with
  | true =>
    have hensure : ensureLoaded source folder context c = (.ok (), c, []) := by
      rw [ensureLoaded, if_pos hl]
    rw [get_of_ok (by rw [hensure]), hensure, h]
    rfl
  | false =>
    have hensure : (ensureLoaded source folder context c).2.1 =
        (loadAll source folder context c).2.1 := by
      rw [ensureLoaded_eq, hl]
      rfl
    rw [if_neg Bool.false_ne_true, Source.standsFor]
    cases hf : source.fault? folder with
    | some f =>
      refine get_of_error ?_ t.name
      have hfault := loadAll_of_fault? context source hf c
      rw [ensureLoaded, hl, if_neg Bool.false_ne_true]
      dsimp only
      rw [hfault]
      rfl
    | none =>
      have hmild := (fault?_eq_none_iff source).mp hf
      rw [get_of_ok (ensureLoaded_ok source folder context hmild c), hensure,
        lookup_loadAll context source hf, h]
      cases source.definition? folder t.name <;> rfl

end

/-- What is used under the name of a table right after the table was put into a catalog. -/
def used (source : Source) (s : State) (t : Table) : Except CatalogError Table :=
  if s.catalog.isLoaded then .ok t else source.standsFor s.folder t

theorem register_of_defects_nil {t : Table} (h : t.defects = []) (context : Context)
    (c : Catalog) : register context t c = (.ok (), { c with cache := insert t c.cache },
      [(Log.Event.registered t.name).record context]) := by
  rw [register, h]
  rfl

theorem get_register (source : Source) (s : State) {t : Table} (h : t.defects = [])
    (registering asking : Context) :
    (get source s.folder asking t.name (register registering t s.catalog).2.1).1 =
      used source s t := by
  rw [register_of_defects_nil h]
  exact get_of_lookup asking source s.folder (lookup_insert_self t s.catalog.cache)

theorem get?_eq_get {source : Source} {folder : Option Entry} {context : Context} {name : String}
    {c : Catalog} {r : Except CatalogError Table}
    (h : (get source folder context name c).1 = r) (hr : ∀ n, r ≠ .error (.notFound n)) :
    (get? source folder context name c).1 = r.map some := by
  rw [get] at h
  generalize get? source folder context name c = o at h ⊢
  obtain ⟨result, after, records⟩ := o
  rcases result with e | _ | t
  · rw [← h]
    rfl
  · exact absurd h.symm (hr name)
  · rw [← h]
    rfl

theorem used_ne_notFound (source : Source) (s : State) (t : Table) (name : String) :
    used source s t ≠ .error (.notFound name) := by
  rw [used, Source.standsFor]
  split
  · simp
  · split <;> simp

structure Registered (source : Source) (s : State) (t : Table) (registering asking : Context) :
    Prop where
  accepted : (register registering t s.catalog).1 = .ok ()
  got? : (get? source s.folder asking t.name (register registering t s.catalog).2.1).1 =
    (used source s t).map some
  got : (get source s.folder asking t.name (register registering t s.catalog).2.1).1 =
    used source s t
  compiled : ∀ calls,
    (compile source s.folder asking t.name (register registering t s.catalog).2.1 calls).1.1 =
      match used source s t with
      | .error e => .error e
      | .ok u => (u.compile source.compiler asking calls).1.mapError .compile
  /-- The table itself is used, unless the files are only now looked at, and end in a fault or
  define another table under its name. -/
  itself : used source s t = .ok t ↔ s.catalog.isLoaded = true ∨ source.fault? s.folder = none ∧
    ∀ u, source.definition? s.folder t.name = some u → u = t

/-- A table whose parts agree is registered in every state. Requests for its name then find the
table itself, once the files have been looked at; before that, a table of the files goes first. -/
theorem registered (source : Source) (s : State) {t : Table} (h : t.defects = [])
    (registering asking : Context) : Registered source s t registering asking := by
  have hget := get_register source s h registering asking
  refine ⟨by rw [register_of_defects_nil h], get?_eq_get hget (used_ne_notFound source s t), hget,
    ?_, ?_⟩
  · intro calls
    have hcompile := compile_eq source s.folder asking t.name (register registering t s.catalog).2.1
      calls
    rw [hget] at hcompile
    exact hcompile
  · rw [used]
    split
    · rename_i hl
      exact iff_of_true rfl (.inl hl)
    · rename_i hl
      rw [Source.standsFor_eq_ok_self, or_iff_right hl]

def draft : Table where
  name := "notes"
  columns := [⟨"text", .scalar [] (.string (.plain none)), false, none⟩]
  primaryKeys := []
  indexes := []
  description := none

def noteFolder : Entry := .folder [("a.yaml", noteFile)]

theorem defined_noteFolder :
    ∃ t, t.name = "notes" ∧ t.columnNames = ["id"] ∧
      defined (usualSource.files noteFolder) = [(usualSource.directory.child "a.yaml", t)] := by
  obtain ⟨t, ht, hname, hcolumns⟩ := exists_table?_noteFile
  have hyaml : noteFolder.namesWith ".yaml" = ["a.yaml"] := List.mergeSort_singleton _
  have hyml : noteFolder.namesWith ".yml" = [] := List.mergeSort_nil
  have hendings : usualSource.endings = [".yaml", ".yml"] := rfl
  have hat : noteFolder.tableAt? "a.yaml" = some t := (Entry.tableAt?_of_lookup rfl).trans ht
  refine ⟨t, hname, hcolumns, ?_⟩
  rw [defined_files, hendings]
  simp [hyaml, hyml, hat]

theorem used_draft : ∃ t, t ≠ draft ∧
    used usualSource ⟨some noteFolder, .empty, []⟩ draft = .ok t := by
  obtain ⟨t, hname, hcolumns, hdefined⟩ := defined_noteFolder
  have hdefinition : usualSource.definition? (some noteFolder) "notes" = some t := by
    rw [Source.definition?, Option.bind_some, hdefined]
    simp [hname]
  have hfault : usualSource.fault? (some noteFolder) = none := by
    rw [fault?_eq_none_iff]
    rintro e ⟨⟩
    refine mild_files usualSource fun p hp => ?_
    cases List.mem_singleton.mp hp
    exact mild_noteFile
  have hdraft : draft.name = "notes" := rfl
  have hstands : usualSource.standsFor (some noteFolder) draft = .ok t := by
    rw [Source.standsFor, hfault, hdraft]
    dsimp only
    rw [hdefinition, Option.getD_some]
  refine ⟨t, ?_, ?_⟩
  · rintro rfl
    exact absurd hcolumns (by decide)
  · rw [used, if_neg (by decide)]
    exact hstands

theorem registered_draft :
    draft.defects = [] ∧
    Registered usualSource ⟨some noteFolder, .empty, []⟩ draft .empty .empty ∧
    Registered usualSource ⟨some noteFolder, ⟨[], true⟩, []⟩ draft .empty .empty :=
  ⟨rfl, registered usualSource _ rfl .empty .empty, registered usualSource _ rfl .empty .empty⟩

/-- The files go before a table that was registered when they had not been looked at. -/
theorem get_overtaken :
    ¬∀ (source : Source) (folder : Option Entry) (calls : Calls) (steps : List (Context × Step))
      (t : Table), t.defects = [] → ∀ registering asking : Context,
        let s := State.run source ⟨folder, .empty, calls⟩ steps
        (get source s.folder asking t.name (register registering t s.catalog).2.1).1 = .ok t := by
  intro hclaim
  obtain ⟨t, hne, hused⟩ := used_draft
  have hget : (get usualSource (some noteFolder) .empty draft.name
      (register .empty draft .empty).2.1).1 = .ok draft :=
    hclaim usualSource (some noteFolder) [] [] draft rfl .empty .empty
  have hother :=
    get_register usualSource ⟨some noteFolder, .empty, []⟩ (t := draft) rfl .empty .empty
  rw [hused] at hother
  exact hne (Except.ok.inj (hother.symm.trans hget))

end Catalog

end Tablewright
