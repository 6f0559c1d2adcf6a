import Tablewright.Proofs.Catalog.Folder

namespace Tablewright

open Log (Context Event Level Record)

def Entry.table? (e : Entry) : Option Table := (Table.load e).toOption

def Entry.Mild (e : Entry) : Prop := ∀ err, Table.load e = .error err → err.fatal? = none

def Entry.fault? (e : Entry) : Option Yaml.Fault :=
  match Table.load e with
  | .ok _ => none
  | .error err => err.fatal?

theorem Entry.fault?_eq_some {e : Entry} {f : Yaml.Fault} :
    e.fault? = some f ↔ ∃ err, Table.load e = .error err ∧ err.fatal? = some f := by
  rw [fault?]
  cases Table.load e <;> simp

theorem Entry.mild_iff {e : Entry} : e.Mild ↔ e.fault? = none := by
  rw [Mild, fault?]
  cases Table.load e <;> simp

instance (e : Entry) : Decidable e.Mild := decidable_of_iff (e.fault? = none) Entry.mild_iff.symm

theorem Entry.mild_of_table? {e : Entry} (h : e.table?.isSome = true) : e.Mild := by
  intro err he
  rw [table?, he] at h
  cases h

theorem Table.ofValue_eq_ok {v : Value} {t : Table} :
    ofValue v = .ok t ↔ Table.read .none v = .ok t ∧ t.defects = [] := by
  cases v with
  | dict es =>
    rw [ofValue]
    cases hr : Table.read .none (.dict es) with
    | error issues => simp
    | ok u =>
      dsimp only
      split
      · rename_i hd
        rw [List.isEmpty_iff] at hd
        constructor
        · rintro ⟨⟩
          exact ⟨rfl, hd⟩
        · rintro ⟨⟨⟩, -⟩
          rfl
      · rename_i hd
        rw [List.isEmpty_iff] at hd
        constructor
        · rintro ⟨⟩
        · rintro ⟨⟨⟩, h⟩
          exact absurd h hd
  | _ => simp [ofValue, Table.read, readModel, Read.fail]

theorem Entry.table?_eq_some_iff_load {e : Entry} {t : Table} :
    e.table? = some t ↔ Table.load e = .ok t := by
  rw [table?]
  cases Table.load e <;> simp [Except.toOption]

/-- An entry defines a table when it is a text, the text is a document, the document is read as a
table, and the parts of the table agree. -/
theorem Entry.table?_eq_some {e : Entry} {t : Table} :
    e.table? = some t ↔ ∃ cs v, e.text? = some cs ∧ Yaml.read cs = .ok v ∧
      Table.read .none v = .ok t ∧ t.defects = [] := by
  rw [table?_eq_some_iff_load, Table.load]
  cases e.text? with
  | none => simp
  | some cs =>
    dsimp only
    cases hv : Yaml.read cs with
    | error f => simp [hv]
    | ok v => simp [hv, Table.ofValue_eq_ok]

namespace Catalog

def defined (files : List (Path × Entry)) : List (Path × Table) :=
  files.filterMap fun f => f.2.table?.map (f.1, ·)

def complaint? (context : Context) (file : Path × Entry) : Option Record :=
  match Table.load file.2 with
  | .ok _ => none
  | .error err => some ((Event.unloadable file.1.text (err.reason file.1)).record context)

def insertAll (cache : List (String × Table)) (new : List Table) : List (String × Table) :=
  new.foldl (fun done t => insert t done) cache

def reports (context : Context) : List (String × Table) → List (Path × Table) → List Record
  | _, [] => []
  | cache, (path, t) :: rest =>
    (loadedEvents cache path t).map (·.record context) ++ reports context (insert t cache) rest

section

variable (context : Context)

theorem loadFiles_cons_ok {path : Path} {e : Entry} {t : Table} (h : Table.load e = .ok t)
    (files : List (Path × Entry)) (cache : List (String × Table)) :
    loadFiles context ((path, e) :: files) cache =
      ((loadFiles context files (insert t cache)).1.map (· + 1),
        (loadFiles context files (insert t cache)).2.1,
        (loadedEvents cache path t).map (·.record context)
          ++ (loadFiles context files (insert t cache)).2.2) := by
  rw [loadFiles, h]

theorem loadFiles_cons_error {path : Path} {e : Entry} {err : LoadError}
    (h : Table.load e = .error err) (hf : err.fatal? = none) (files : List (Path × Entry))
    (cache : List (String × Table)) :
    loadFiles context ((path, e) :: files) cache =
      ((loadFiles context files cache).1, (loadFiles context files cache).2.1,
        (Event.unloadable path.text (err.reason path)).record context
          :: (loadFiles context files cache).2.2) := by
  rw [loadFiles, h]
  dsimp only
  rw [hf]

theorem loadFiles_cons_fatal {path : Path} {e : Entry} {f : Yaml.Fault} (h : e.fault? = some f)
    (files : List (Path × Entry)) (cache : List (String × Table)) :
    loadFiles context ((path, e) :: files) cache = (.error f, cache, []) := by
  obtain ⟨err, herr, hf⟩ := Entry.fault?_eq_some.mp h
  rw [loadFiles, herr]
  dsimp only
  rw [hf]

theorem defined_cons_ok {path : Path} {e : Entry} {t : Table} (h : Table.load e = .ok t)
    (files : List (Path × Entry)) : defined ((path, e) :: files) = (path, t) :: defined files := by
  simp [defined, Entry.table?, h, Except.toOption]

theorem defined_cons_error {path : Path} {e : Entry} {err : LoadError}
    (h : Table.load e = .error err) (files : List (Path × Entry)) :
    defined ((path, e) :: files) = defined files := by
  simp [defined, Entry.table?, h, Except.toOption]

variable {files : List (Path × Entry)}

theorem loadFiles_eq (h : ∀ f ∈ files, f.2.Mild) (cache : List (String × Table)) :
    (loadFiles context files cache).1 = .ok (defined files).length ∧
      (loadFiles context files cache).2.1 = insertAll cache ((defined files).map (·.2)) := by
  induction files generalizing cache with
  | nil => exact ⟨rfl, rfl⟩
  | cons f fs ih =>
    obtain ⟨path, e⟩ := f
    obtain ⟨he, hfs⟩ := List.forall_mem_cons.mp h
    cases hl : Table.load e with
    | ok t =>
      obtain ⟨hcount, hcache⟩ := ih hfs (insert t cache)
      rw [loadFiles_cons_ok context hl, hcount, hcache, defined_cons_ok hl]
      exact ⟨rfl, rfl⟩
    | error err =>
      obtain ⟨hcount, hcache⟩ := ih hfs cache
      rw [loadFiles_cons_error context hl (he err hl), hcount, hcache, defined_cons_error hl]
      exact ⟨rfl, rfl⟩

theorem level_loadedEvents {cache : List (String × Table)} {path : Path} {t : Table} {r : Record}
    (h : r ∈ (loadedEvents cache path t).map (·.record context)) : r.level ≠ .error := by
  have hwarning : Level.warning ≠ .error := by decide
  have hinfo : Level.info ≠ .error := by decide
  obtain ⟨e, he, rfl⟩ := List.mem_map.mp h
  rw [loadedEvents, List.mem_append] at he
  obtain he | he := he
  · split at he
    · rw [List.mem_singleton.mp he]
      exact hwarning
    · cases he
  · rw [List.mem_singleton.mp he]
    exact hinfo

/-- Every file that defines no table is reported as one error, and no other file is. -/
theorem filter_error_loadFiles (h : ∀ f ∈ files, f.2.Mild) (cache : List (String × Table)) :
    (loadFiles context files cache).2.2.filter (·.level == .error) =
      files.filterMap (complaint? context) := by
  induction files generalizing cache with
  | nil => rfl
  | cons f fs ih =>
    obtain ⟨path, e⟩ := f
    obtain ⟨he, hfs⟩ := List.forall_mem_cons.mp h
    cases hl : Table.load e with
    | ok t =>
      have hc : complaint? context (path, e) = none := by rw [complaint?, hl]
      have hnone : ((loadedEvents cache path t).map (·.record context)).filter
          (·.level == .error) = [] := by
        rw [List.filter_eq_nil_iff]
        exact fun r hr he => level_loadedEvents context hr (beq_iff_eq.mp he)
      rw [loadFiles_cons_ok context hl, List.filter_append, hnone, List.nil_append, ih hfs,
        List.filterMap_cons_none hc]
    | error err =>
      have hc : complaint? context (path, e) =
          some ((Event.unloadable path.text (err.reason path)).record context) := by
        rw [complaint?, hl]
      rw [loadFiles_cons_error context hl (he err hl), List.filterMap_cons_some hc, ← ih hfs cache]
      rfl

theorem filter_rest_loadFiles (h : ∀ f ∈ files, f.2.Mild) (cache : List (String × Table)) :
    (loadFiles context files cache).2.2.filter (·.level != .error) =
      reports context cache (defined files) := by
  induction files generalizing cache with
  | nil => rfl
  | cons f fs ih =>
    obtain ⟨path, e⟩ := f
    obtain ⟨he, hfs⟩ := List.forall_mem_cons.mp h
    cases hl : Table.load e with
    | ok t =>
      have hall : ((loadedEvents cache path t).map (·.record context)).filter
          (·.level != .error) = (loadedEvents cache path t).map (·.record context) := by
        rw [List.filter_eq_self]
        exact fun r hr => bne_iff_ne.mpr (level_loadedEvents context hr)
      rw [loadFiles_cons_ok context hl, List.filter_append, hall, ih hfs, defined_cons_ok hl,
        reports]
    | error err =>
      rw [loadFiles_cons_error context hl (he err hl), defined_cons_error hl, ← ih hfs cache]
      rfl

end

theorem lookup_insertAll (cache : List (String × Table)) (new : List Table) (name : String) :
    (insertAll cache new).lookup name =
      (new.reverse.find? (·.name == name)).or (cache.lookup name) := by
  induction new generalizing cache with
  | nil => rfl
  | cons t ts ih =>
    rw [insertAll, List.foldl_cons, ← insertAll, ih, List.reverse_cons, List.find?_append,
      Option.or_assoc]
    congr 1
    by_cases ht : t.name = name
    · subst ht
      rw [lookup_insert_self]
      simp
    · rw [lookup_insert_of_ne ht]
      simp [ht]

theorem map_fst_insert (t : Table) (cache : List (String × Table)) :
    (insert t cache).map (·.1) =
      cache.map (·.1) ++ if t.name ∈ cache.map (·.1) then [] else [t.name] := by
  induction cache with
  | nil => rfl
  | cons e rest ih =>
    rw [insert]
    split
    · rename_i he
      rw [beq_iff_eq] at he
      simp [he]
    · rename_i he
      have hne : t.name ≠ e.1 := fun h => he (beq_iff_eq.mpr h.symm)
      rw [List.map_cons, ih, List.map_cons, List.cons_append]
      simp only [List.mem_cons, hne, false_or]

theorem map_fst_insertAll (cache : List (String × Table)) (new : List Table) :
    (insertAll cache new).map (·.1) = cache.map (·.1) ++
      ((new.map (·.name)).filter (· ∉ cache.map (·.1))).eraseDups := by
  induction new generalizing cache with
  | nil => simp [insertAll]
  | cons t ts ih =>
    rw [insertAll, List.foldl_cons, ← insertAll, ih, map_fst_insert, List.map_cons,
      List.filter_cons]
    by_cases ht : t.name ∈ cache.map (·.1)
    · rw [if_pos ht, List.append_nil, if_neg (by simpa using ht)]
    -- The name is new: from here on it is among those that are there.
    · have hrest : (ts.map (·.name)).filter (· ∉ cache.map (·.1) ++ [t.name]) =
          ((ts.map (·.name)).filter (· ∉ cache.map (·.1))).filter (!· == t.name) := by
        rw [List.filter_filter]
        refine List.filter_congr fun n _ => Bool.eq_iff_iff.mpr ?_
        simp only [List.mem_append, List.mem_singleton, not_or, decide_eq_true_eq, Bool.and_eq_true,
          Bool.not_eq_true', beq_eq_false_iff_ne]
        exact and_comm
      rw [if_neg ht, if_pos (by simpa using ht), List.eraseDups_cons, List.append_assoc, hrest]
      rfl

def keys (c : Catalog) : List String := c.cache.map (·.1)

/-- The tables are kept under their own names. -/
def Keyed (cache : List (String × Table)) : Prop := ∀ e ∈ cache, e.1 = e.2.name

theorem names_eq_keys {c : Catalog} (h : Keyed c.cache) : c.names = c.keys := by
  rw [names, tables, keys, List.map_map]
  exact (List.map_congr_left h).symm

theorem mem_of_mem_insert {t : Table} {e : String × Table} {cache : List (String × Table)}
    (h : e ∈ insert t cache) : e = (t.name, t) ∨ e ∈ cache := by
  induction cache with
  | nil => exact .inl (List.mem_singleton.mp h)
  | cons d rest ih =>
    rw [insert] at h
    split at h
    · rename_i hd
      obtain rfl | h := List.mem_cons.mp h
      · exact .inl (congrArg (·, t) (eq_of_beq hd))
      · exact .inr (List.mem_cons_of_mem d h)
    · obtain rfl | h := List.mem_cons.mp h
      · exact .inr List.mem_cons_self
      · exact (ih h).imp_right (List.mem_cons_of_mem d)

theorem Keyed.insert {cache : List (String × Table)} (h : Keyed cache) (t : Table) :
    Keyed (insert t cache) := by
  intro e he
  obtain rfl | he := mem_of_mem_insert he
  · rfl
  · exact h e he

theorem Keyed.insertAll {cache : List (String × Table)} (h : Keyed cache) (new : List Table) :
    Keyed (insertAll cache new) := by
  induction new generalizing cache with
  | nil => exact h
  | cons t ts ih => exact ih (h.insert t)

/-- What comes of putting tables among those of a catalog: of the tables of one name the last
counts, and new names come last, each where it is first met. -/
structure Extended (c : Catalog) (new : List Table) (after : Catalog) : Prop where
  cache : after.cache = insertAll c.cache new
  lookup : ∀ name, after.cache.lookup name =
    (new.reverse.find? (·.name == name)).or (c.cache.lookup name)
  keys : after.keys = c.keys ++ ((new.map (·.name)).filter (· ∉ c.keys)).eraseDups
  /-- The tables are listed in the order of their keys. -/
  names : Keyed c.cache → Keyed after.cache ∧ after.names = after.keys
  isLoaded : after.isLoaded = true

theorem extended_insertAll (c : Catalog) (new : List Table) :
    Extended c new ⟨insertAll c.cache new, true⟩ :=
  ⟨rfl, lookup_insertAll c.cache new, map_fst_insertAll c.cache new,
    fun h => ⟨h.insertAll new, names_eq_keys (h.insertAll new)⟩, rfl⟩

section

variable (source : Source) (context : Context)

theorem loadAll_some {folder : Entry} (h : ∀ f ∈ source.files folder, f.2.Mild) (c : Catalog) :
    loadAll source (some folder) context c =
      (.ok (defined (source.files folder)).length,
        ⟨insertAll c.cache ((defined (source.files folder)).map (·.2)), true⟩,
        (loadFiles context (source.files folder) c.cache).2.2
          ++ [(Event.loadedAll (defined (source.files folder)).length
            source.directory.text).record context]) := by
  obtain ⟨hcount, hcache⟩ := loadFiles_eq context h c.cache
  rw [loadAll]
  cases hl : loadFiles context (source.files folder) c.cache with
  | mk count rest =>
    obtain ⟨cache, records⟩ := rest
    rw [hl] at hcount hcache
    dsimp only at hcount hcache
    rw [hcount, hcache]

end

end Catalog

def Entry.tableAt? (folder : Entry) (name : String) : Option Table :=
  (folder.entries.lookup name).bind table?

theorem Entry.tableAt?_of_lookup {folder e : Entry} {name : String}
    (h : folder.entries.lookup name = some e) : folder.tableAt? name = e.table? := by
  rw [tableAt?, h, Option.bind_some]

theorem Entry.tableAt?_remove (folder : Entry) (gone name : String) :
    (folder.remove gone).tableAt? name = if name = gone then none else folder.tableAt? name := by
  cases folder with
  | file bytes => simp [remove, tableAt?, entries]
  | folder es =>
    simp only [remove, tableAt?, entries]
    induction es with
    | nil => simp
    | cons p ps ih =>
      obtain ⟨n, e⟩ := p
      by_cases hn : n = gone
      · subst hn
        rw [List.filter_cons_of_neg (by simp), ih, List.lookup_cons]
        by_cases hname : name = n
        · rw [if_pos hname, if_pos hname]
        · rw [if_neg hname, if_neg hname, beq_false_of_ne hname]
      · rw [List.filter_cons_of_pos (by simpa using hn), List.lookup_cons, List.lookup_cons]
        by_cases hname : name = n
        · subst hname
          rw [if_neg hn, beq_self_eq_true]
        · rw [beq_false_of_ne hname]
          exact ih

namespace Catalog

theorem defined_files (source : Source) (folder : Entry) :
    defined (source.files folder) = source.endings.flatMap fun ending =>
      (folder.namesWith ending).filterMap fun name =>
        (folder.tableAt? name).map (source.directory.child name, ·) := by
  rw [defined, Source.files, List.filterMap_flatMap]
  refine List.flatMap_congr fun ending _ => ?_
  rw [List.filterMap_filterMap]
  refine List.filterMap_congr fun name _ => ?_
  rw [Entry.tableAt?]
  cases folder.entries.lookup name <;> rfl

/-- Only the files that define tables matter, and only those with a right ending. -/
theorem defined_files_eq {source : Source} {folder other : Entry} (hf : folder.Distinct)
    (ho : other.Distinct)
    (h : ∀ ending ∈ source.endings, ∀ name : String, ending.toList <:+ name.toList →
      folder.tableAt? name = other.tableAt? name) :
    defined (source.files folder) = defined (source.files other) := by
  rw [defined_files, defined_files]
  refine List.flatMap_congr fun ending he => ?_
  exact Entry.filterMap_namesWith_eq (·.bind Entry.table?) hf ho rfl (h ending he) _

theorem lookup_of_mem_files {source : Source} {folder : Entry} {f : Path × Entry}
    (h : f ∈ source.files folder) :
    ∃ name, f.1 = source.directory.child name ∧ folder.entries.lookup name = some f.2 := by
  obtain ⟨ending, -, hf⟩ := List.mem_flatMap.mp h
  obtain ⟨name, -, he⟩ := List.mem_filterMap.mp hf
  obtain ⟨e, hl, rfl⟩ := Option.map_eq_some_iff.mp he
  exact ⟨name, rfl, hl⟩

theorem mild_files (source : Source) {folder : Entry} (h : ∀ p ∈ folder.entries, p.2.Mild) :
    ∀ f ∈ source.files folder, f.2.Mild := by
  intro f hf
  obtain ⟨name, -, hl⟩ := lookup_of_mem_files hf
  obtain ⟨before, after, he, -⟩ := List.lookup_eq_some_iff.mp hl
  exact h (name, f.2) (by simp [he])

theorem mem_defined {files : List (Path × Entry)} {path : Path} {t : Table} :
    (path, t) ∈ defined files ↔ ∃ e, (path, e) ∈ files ∧ ∃ cs v, e.text? = some cs ∧
      Yaml.read cs = .ok v ∧ Table.read .none v = .ok t ∧ t.defects = [] := by
  simp only [← Entry.table?_eq_some, defined, List.mem_filterMap, Option.map_eq_some_iff,
    Prod.mk.injEq]
  constructor
  · rintro ⟨⟨path, e⟩, hf, u, hu, rfl, rfl⟩
    exact ⟨e, hf, hu⟩
  · rintro ⟨e, hf, ht⟩
    exact ⟨(path, e), hf, t, ht, rfl, rfl⟩

/-- What loading a folder comes to, on top of a catalog: the files are taken by ending and then by
name, those that define a table are put into the catalog in this order and are counted, and every
other file is reported as one error. -/
structure Loads (source : Source) (folder : Entry) (context : Context) (c : Catalog)
    (outcome : Outcome Nat) : Prop where
  paths : (source.files folder).map (·.1) =
    (folder.namesWith ".yaml" ++ folder.namesWith ".yml").map source.directory.child
  sorted : ∀ ending, (folder.namesWith ending).Pairwise (·.toList < ·.toList)
  names : ∀ ending name, name ∈ folder.namesWith ending ↔
    name ∈ folder.entries.map (·.1) ∧ ending.toList <:+ name.toList
  entries : ∀ f ∈ source.files folder, ∃ name, f.1 = source.directory.child name ∧
    folder.entries.lookup name = some f.2
  tables : ∀ path t, (path, t) ∈ defined (source.files folder) ↔
    ∃ e, (path, e) ∈ source.files folder ∧ ∃ cs v, e.text? = some cs ∧ Yaml.read cs = .ok v ∧
      Table.read .none v = .ok t ∧ t.defects = []
  count : outcome.1 = .ok (defined (source.files folder)).length
  extended : Extended c ((defined (source.files folder)).map (·.2)) outcome.2.1
  errors : outcome.2.2.filter (·.level == .error) =
    (source.files folder).filterMap (complaint? context)

theorem filter_error_loadAll {source : Source} {folder : Entry}
    (h : ∀ f ∈ source.files folder, f.2.Mild) (context : Context) (c : Catalog) :
    (loadAll source (some folder) context c).2.2.filter (·.level == .error) =
      (source.files folder).filterMap (complaint? context) := by
  rw [loadAll_some source context h, List.filter_append, filter_error_loadFiles context h]
  exact List.append_nil _

theorem filter_rest_loadAll {source : Source} {folder : Entry}
    (h : ∀ f ∈ source.files folder, f.2.Mild) (context : Context) (c : Catalog) :
    (loadAll source (some folder) context c).2.2.filter (·.level != .error) =
      reports context c.cache (defined (source.files folder))
        ++ [(Event.loadedAll (defined (source.files folder)).length
          source.directory.text).record context] := by
  rw [loadAll_some source context h, List.filter_append, filter_rest_loadFiles context h]
  rfl

/-- Loading a folder is a fold over the files that define tables. Files that define none leave one
error each and nothing else: a folder with other files in their place is loaded alike. Loading anew
forgets whatever was known before. -/
theorem loads_loadAll {env : Environment} {home : Path} {directory : String}
    {compiler : CompilerSettings} {source : Source}
    (hs : source = .ofSettings (.ofEnvironment env) home directory compiler) {folder : Entry}
    (hd : folder.Distinct) (hm : ∀ f ∈ source.files folder, f.2.Mild) (context : Context) :
    (∀ c, Loads source folder context c (loadAll source (some folder) context c)) ∧
    (∀ other : Entry, other.Distinct → (∀ f ∈ source.files other, f.2.Mild) →
      (∀ ending ∈ Settings.endings, ∀ name : String, ending.toList <:+ name.toList →
        other.tableAt? name = folder.tableAt? name) →
      ∀ c, (loadAll source (some other) context c).1 = (loadAll source (some folder) context c).1 ∧
        (loadAll source (some other) context c).2.1 =
          (loadAll source (some folder) context c).2.1 ∧
        (loadAll source (some other) context c).2.2.filter (·.level != .error) =
          (loadAll source (some folder) context c).2.2.filter (·.level != .error)) ∧
    (∀ found old, reload source found context old = loadAll source found context .empty) ∧
    (∀ old, Loads source folder context .empty (reload source (some folder) context old)) ∧
    ∀ old, (reload source none context old).1 = .ok 0 ∧
      (reload source none context old).2.1 = ⟨[], true⟩ := by
  have hendings : source.endings = Settings.endings := by
    rw [hs]
    rfl
  have hloads : ∀ c, Loads source folder context c (loadAll source (some folder) context c) := by
    intro c
    refine ⟨?_, hd.sorted_namesWith, fun _ _ => Entry.mem_namesWith,
      fun _ => lookup_of_mem_files, fun _ _ => mem_defined, ?_, ?_,
      filter_error_loadAll hm context c⟩
    · rw [Source.map_files, hendings]
      simp [Settings.endings]
    · rw [loadAll_some source context hm]
    · rw [loadAll_some source context hm]
      exact extended_insertAll c _
  refine ⟨hloads, ?_, fun _ _ => rfl, fun _ => hloads .empty, fun _ => ⟨rfl, rfl⟩⟩
  intro other ho hmo hagree c
  have hdefined : defined (source.files other) = defined (source.files folder) := by
    refine defined_files_eq ho hd ?_
    rw [hendings]
    exact hagree
  refine ⟨?_, ?_, ?_⟩
  · rw [loadAll_some source context hmo, loadAll_some source context hm, hdefined]
  · rw [loadAll_some source context hmo, loadAll_some source context hm, hdefined]
  · rw [filter_rest_loadAll hmo, filter_rest_loadAll hm, hdefined]

def usualSource : Source :=
  .ofSettings (.ofEnvironment []) (.ofText "/home") "" ⟨false, "Row"⟩

def noteFile : Entry :=
  .file "{name: notes, columns: [{name: id, rule: {kind: any}}]}".toUTF8.toList

theorem exists_table?_noteFile :
    ∃ t, noteFile.table? = some t ∧ t.name = "notes" ∧ t.columnNames = ["id"] := by
  have hnote : noteFile.table?.map (fun t => (t.name, t.columnNames)) = some ("notes", ["id"]) := by
    decide +kernel
  obtain ⟨t, ht, hnames⟩ := Option.map_eq_some_iff.mp hnote
  obtain ⟨hname, hcolumns⟩ := Prod.mk.inj hnames
  exact ⟨t, ht, hname, hcolumns⟩

theorem mild_noteFile : noteFile.Mild := by
  obtain ⟨t, ht, -⟩ := exists_table?_noteFile
  exact Entry.mild_of_table? (by rw [ht, Option.isSome_some])

def mixed : Entry := .folder [("b.yml", noteFile), ("c.yaml", .file []), ("a.yaml", noteFile)]

theorem loads_loadAll_mixed :
    mixed.Distinct ∧ (∀ f ∈ usualSource.files mixed, f.2.Mild) ∧
    Loads usualSource mixed .empty .empty (loadAll usualSource (some mixed) .empty .empty) ∧
    (loadAll usualSource (some mixed) .empty .empty).1 = .ok 2 ∧
    (loadAll usualSource (some mixed) .empty .empty).2.1.names = ["notes"] ∧
    (loadAll usualSource (some (mixed.remove "c.yaml")) .empty .empty).2.1 =
      (loadAll usualSource (some mixed) .empty .empty).2.1 := by
  obtain ⟨t, ht, hname, -⟩ := exists_table?_noteFile
  have hempty : (Entry.file []).table? = none :=
    Option.isNone_iff_eq_none.mp (by decide +kernel)
  have hd : mixed.Distinct := by simp [Entry.Distinct, mixed, Entry.entries]
  have hmild : ∀ p ∈ mixed.entries, p.2.Mild := by
    intro p hp
    simp only [mixed, Entry.entries, List.mem_cons, List.not_mem_nil, or_false] at hp
    obtain rfl | rfl | rfl := hp
    · exact mild_noteFile
    · decide +kernel
    · exact mild_noteFile
  have hm := mild_files usualSource hmild
  have hs : usualSource = .ofSettings (.ofEnvironment []) (.ofText "/home") "" ⟨false, "Row"⟩ := rfl
  obtain ⟨hloads, hothers, -⟩ := loads_loadAll hs hd hm .empty
  have hyaml : mixed.namesWith ".yaml" = ["a.yaml", "c.yaml"] := by
    have hf : (mixed.entries.map (·.1)).filter (".yaml".toList.isSuffixOf ·.toList) =
        ["c.yaml", "a.yaml"] := rfl
    rw [Entry.namesWith, hf]
    simp [List.mergeSort]
  have hyml : mixed.namesWith ".yml" = ["b.yml"] := by
    have hf : (mixed.entries.map (·.1)).filter (".yml".toList.isSuffixOf ·.toList) =
        ["b.yml"] := rfl
    rw [Entry.namesWith, hf, List.mergeSort_singleton]
  have hdefined : (defined (usualSource.files mixed)).map (·.2) = [t, t] := by
    have ha : mixed.tableAt? "a.yaml" = some t := (Entry.tableAt?_of_lookup rfl).trans ht
    have hb : mixed.tableAt? "b.yml" = some t := (Entry.tableAt?_of_lookup rfl).trans ht
    have hc : mixed.tableAt? "c.yaml" = none := (Entry.tableAt?_of_lookup rfl).trans hempty
    have hendings : usualSource.endings = [".yaml", ".yml"] := rfl
    rw [defined_files, hendings]
    simp [hyaml, hyml, ha, hb, hc]
  have hload := hloads .empty
  refine ⟨hd, hm, hload, ?_, ?_, ?_⟩
  · rw [hload.count, ← List.length_map (·.2), hdefined]
    rfl
  · have hkeyed : Keyed Catalog.empty.cache := by rintro e ⟨⟩
    rw [(hload.extended.names hkeyed).2, hload.extended.keys, hdefined]
    simp [hname, keys, empty]
    rfl
  · have hcut : (mixed.remove "c.yaml").Distinct := by
      simp [Entry.Distinct, mixed, Entry.entries, Entry.remove]
    have hrest : ∀ p ∈ (mixed.remove "c.yaml").entries, p.2.Mild := fun p hp => hmild p (by
      simp only [mixed, Entry.entries, Entry.remove, List.mem_filter] at hp
      exact hp.1)
    refine (hothers _ hcut (mild_files usualSource hrest) (fun _ _ name _ => ?_) .empty).2.1
    rw [Entry.tableAt?_remove]
    split
    · rename_i hn
      exact hn ▸ hempty.symm
    · rfl

end Catalog

end Tablewright
