import Mathlib.Data.List.Infix
import Tablewright.Proofs.Catalog.Loading
import Tablewright.Proofs.Table.Compiled

namespace Tablewright

open Log (Context)

/-- Whether an error is about a key that is missing: a name that no table has, a word that is no
truth in a document, or what a default function says of a key. -/
def CatalogError.isKey : CatalogError → Bool
  | .notFound _ => true
  | .fault (.unknownTruth _) => true
  | .compile (.fault (.key _)) => true
  | _ => false

def CatalogError.isStructure : CatalogError → Bool
  | .structure .. => true
  | .compile (.structure ..) => true
  | _ => false

namespace Catalog

/-- Tables under their own names, no two under one, none of which contradicts itself. -/
structure Sound (cache : List (String × Table)) : Prop where
  keyed : Keyed cache
  keys : (cache.map (·.1)).Nodup
  defects : ∀ e ∈ cache, e.2.defects = []

/-- What may become of tables when more are put among them. -/
structure Grown (before after : List (String × Table)) : Prop where
  keys : before.map (·.1) <+: after.map (·.1)
  sound : Sound before → Sound after

theorem sound_nil : Sound [] :=
  ⟨fun _ h => absurd h List.not_mem_nil, List.nodup_nil, fun _ h => absurd h List.not_mem_nil⟩

theorem mem_of_lookup {cache : List (String × Table)} {name : String} {t : Table}
    (h : cache.lookup name = some t) : (name, t) ∈ cache := by
  obtain ⟨left, right, rfl, -⟩ := List.lookup_eq_some_iff.mp h
  exact List.mem_append_right left List.mem_cons_self

theorem lookup_eq_none_iff {cache : List (String × Table)} {name : String} :
    cache.lookup name = none ↔ name ∉ cache.map (·.1) := by
  rw [List.lookup_eq_none_iff, List.mem_map]
  constructor
  · rintro h ⟨e, he, rfl⟩
    exact bne_iff_ne.mp (h e he) rfl
  · exact fun h e he => bne_iff_ne.mpr fun hname => h ⟨e, he, hname.symm⟩

theorem lookup_eq_some_iff {cache : List (String × Table)} (h : Sound cache) {name : String}
    {t : Table} : cache.lookup name = some t ↔ t ∈ cache.map (·.2) ∧ t.name = name := by
  constructor
  · intro ht
    have hmem := mem_of_lookup ht
    exact ⟨List.mem_map.mpr ⟨_, hmem, rfl⟩, (h.keyed _ hmem).symm⟩
  · rintro ⟨ht, rfl⟩
    obtain ⟨e, he, rfl⟩ := List.mem_map.mp ht
    cases hl : cache.lookup e.2.name with
    | none => exact absurd (List.mem_map.mpr ⟨e, he, h.keyed e he⟩) (lookup_eq_none_iff.mp hl)
    | some u =>
      have hmem := mem_of_lookup hl
      have hsame := List.inj_on_of_nodup_map h.keys hmem he (h.keyed e he).symm
      rw [← hsame]

namespace Grown

theorem refl (cache : List (String × Table)) : Grown cache cache := ⟨List.prefix_rfl, id⟩

theorem trans {a b c : List (String × Table)} (hab : Grown a b) (hbc : Grown b c) : Grown a c :=
  ⟨hab.keys.trans hbc.keys, fun h => hbc.sound (hab.sound h)⟩

theorem insert {t : Table} (h : t.defects = []) (cache : List (String × Table)) :
    Grown cache (insert t cache) := by
  refine ⟨?_, fun hs => ⟨hs.keyed.insert t, ?_, ?_⟩⟩
  · rw [map_fst_insert]
    exact List.prefix_append ..
  · rw [map_fst_insert]
    split
    · rw [List.append_nil]
      exact hs.keys
    · rename_i hnew
      refine List.nodup_append.mpr ⟨hs.keys, List.nodup_singleton _, fun a ha b hb => ?_⟩
      rw [List.mem_singleton.mp hb]
      exact ne_of_mem_of_not_mem ha hnew
  · intro e he
    obtain rfl | he := mem_of_mem_insert he
    · exact h
    · exact hs.defects e he

end Grown

theorem defects_of_load {e : Entry} {t : Table} (h : Table.load e = .ok t) : t.defects = [] := by
  obtain ⟨-, -, -, -, -, hd⟩ := Entry.table?_eq_some.mp (Entry.table?_eq_some_iff_load.mpr h)
  exact hd

section

variable (source : Source) (folder : Option Entry) (context : Context)

/-- Whatever the files hold, and also when a fault ends the loading, names only come. -/
theorem grown_loadFiles (files : List (Path × Entry)) (cache : List (String × Table)) :
    Grown cache (loadFiles context files cache).2.1 := by
  induction files generalizing cache with
  | nil => exact .refl cache
  | cons f fs ih =>
    obtain ⟨path, e⟩ := f
    cases hl : Table.load e with
    | ok t =>
      rw [loadFiles_cons_ok context hl]
      exact (Grown.insert (defects_of_load hl) cache).trans (ih _)
    | error err =>
      cases hf : err.fatal? with
      | none =>
        rw [loadFiles_cons_error context hl hf]
        exact ih cache
      | some f =>
        -- The fault ends the loading here, and what was put in before it stays.
        rw [loadFiles_cons_fatal context (Entry.fault?_eq_some.mpr ⟨err, hl, hf⟩)]
        exact .refl cache

theorem cache_loadAll_some (folder : Entry) (c : Catalog) :
    (loadAll source (some folder) context c).2.1.cache =
      (loadFiles context (source.files folder) c.cache).2.1 := by
  rw [loadAll]
  obtain ⟨count, cache, records⟩ := loadFiles context (source.files folder) c.cache
  cases count <;> rfl

theorem grown_loadAll (c : Catalog) :
    Grown c.cache (loadAll source folder context c).2.1.cache := by
  cases folder with
  | none => exact .refl c.cache
  | some folder =>
    rw [cache_loadAll_some]
    exact grown_loadFiles context _ _

theorem ensureLoaded_eq (c : Catalog) :
    (ensureLoaded source folder context c).2.1 =
      if c.isLoaded then c else (loadAll source folder context c).2.1 := by
  rw [ensureLoaded]
  split <;> rfl

theorem grown_ensureLoaded (c : Catalog) :
    Grown c.cache (ensureLoaded source folder context c).2.1.cache := by
  rw [ensureLoaded_eq]
  split
  · exact .refl c.cache
  · exact grown_loadAll source folder context c

theorem get_eq (name : String) (c : Catalog) :
    get source folder context name c =
      (match (ensureLoaded source folder context c).1 with
        | .error e => .error e
        | .ok _ =>
          match (ensureLoaded source folder context c).2.1.cache.lookup name with
          | some t => .ok t
          | none => .error (.notFound name),
        (ensureLoaded source folder context c).2) := by
  rw [get, get?]
  obtain ⟨result, after, records⟩ := ensureLoaded source folder context c
  cases result with
  | error e => rfl
  | ok u =>
    cases hf : after.cache.lookup name <;> simp [Except.map, hf]

theorem get_snd (name : String) (c : Catalog) :
    (get source folder context name c).2 = (ensureLoaded source folder context c).2 := by
  rw [get_eq]

theorem compile_catalog (name : String) (c : Catalog) (calls : Calls) :
    (compile source folder context name c calls).1.2.1 =
      (ensureLoaded source folder context c).2.1 := by
  have hafter := congrArg Prod.fst (get_snd source folder context name c)
  rw [compile]
  generalize get source folder context name c = o at hafter ⊢
  obtain ⟨result, after, records⟩ := o
  cases result <;> exact hafter

theorem compile_eq (name : String) (c : Catalog) (calls : Calls) :
    (compile source folder context name c calls).1.1 =
      match (get source folder context name c).1 with
      | .error e => .error e
      | .ok t => (t.compile source.compiler context calls).1.mapError .compile := by
  rw [compile]
  obtain ⟨result, after, records⟩ := get source folder context name c
  cases result <;> rfl

theorem fault_of_ensureLoaded {c : Catalog} {e : CatalogError}
    (h : (ensureLoaded source folder context c).1 = .error e) : ∃ f, e = .fault f := by
  rw [ensureLoaded] at h
  split at h
  · cases h
  · cases folder with
    | none => cases h
    | some folder =>
      rw [loadAll] at h
      generalize loadFiles context (source.files folder) c.cache = loaded at h
      obtain ⟨count, cache, records⟩ := loaded
      cases count with
      | ok n => cases h
      | error f =>
        cases h
        exact ⟨f, rfl⟩

theorem ensureLoaded_ok (h : ∀ e, folder = some e → ∀ f ∈ source.files e, f.2.Mild) (c : Catalog) :
    (ensureLoaded source folder context c).1 = .ok () := by
  rw [ensureLoaded]
  split
  · rfl
  · cases folder with
    | none => rfl
    | some folder =>
      rw [loadAll_some source context (h folder rfl)]
      rfl

end

end Catalog

theorem Table.compile_ne_structure {settings : CompilerSettings} {context : Context} {t : Table}
    (h : t.defects = []) (calls : Calls) (name : String) (defects : List Defect) :
    (t.compile settings context calls).1 ≠ .error (.structure name defects) := by
  intro hc
  have hfst := congrArg Prod.fst (compile_eq settings context h calls)
  rw [hc] at hfst
  dsimp only at hfst
  split at hfst
  · cases hfst
  · rw [model] at hfst
    split at hfst
    · cases hfst
    · split at hfst <;> cases hfst

namespace Catalog

/-- What happens to a catalog: it is asked for something, or the folder that it is loaded from
becomes another, which may be any. -/
inductive Step
  | loadAll
  | reload
  | get? (name : String)
  | get (name : String)
  | list
  | register (t : Table)
  | compile (name : String)
  | change (folder : Option Entry)

structure State where
  folder : Option Entry
  catalog : Catalog
  calls : Calls

namespace State

variable (source : Source)

def next (s : State) : Context × Step → State
  | (context, .loadAll) => { s with catalog := (loadAll source s.folder context s.catalog).2.1 }
  | (context, .reload) => { s with catalog := (reload source s.folder context s.catalog).2.1 }
  | (context, .get? name) =>
    { s with catalog := (get? source s.folder context name s.catalog).2.1 }
  | (context, .get name) => { s with catalog := (get source s.folder context name s.catalog).2.1 }
  | (context, .list) => { s with catalog := (list source s.folder context s.catalog).2.1 }
  | (context, .register t) => { s with catalog := (register context t s.catalog).2.1 }
  | (context, .compile name) =>
    { s with
      catalog := (compile source s.folder context name s.catalog s.calls).1.2.1
      calls := (compile source s.folder context name s.catalog s.calls).2 }
  | (_, .change folder) => { s with folder }

def run (s : State) (steps : List (Context × Step)) : State := steps.foldl (next source) s

end State

theorem register_of_defects {t : Table} (h : t.defects ≠ []) (context : Context) (c : Catalog) :
    register context t c = (.error (.structure t.name t.defects), c, []) := by
  rw [register, if_neg (by simpa using h)]

theorem grown_register (t : Table) (context : Context) (c : Catalog) :
    Grown c.cache (register context t c).2.1.cache := by
  by_cases h : t.defects = []
  · rw [register, h, List.isEmpty_nil, if_pos rfl]
    exact .insert h c.cache
  · rw [register_of_defects h]
    exact .refl c.cache

namespace State

variable (source : Source)

theorem grown_next (s : State) {step : Context × Step} (h : step.2 ≠ .reload) :
    Grown s.catalog.cache (s.next source step).catalog.cache := by
  obtain ⟨context, step⟩ := step
  have hensure := grown_ensureLoaded source s.folder context s.catalog
  cases step with
  | loadAll => exact grown_loadAll source s.folder context s.catalog
  | reload => exact absurd rfl h
  | get? name => exact hensure
  | get name =>
    rw [next, get_snd]
    exact hensure
  | list => exact hensure
  | register t => exact grown_register t context s.catalog
  | compile name =>
    rw [next, compile_catalog]
    exact hensure
  | change folder => exact .refl s.catalog.cache

theorem sound_next (s : State) (step : Context × Step) (h : Sound s.catalog.cache) :
    Sound (s.next source step).catalog.cache := by
  by_cases hr : step.2 = .reload
  · obtain ⟨context, step⟩ := step
    subst hr
    exact (grown_loadAll source s.folder context .empty).sound sound_nil
  · exact (grown_next source s hr).sound h

theorem sound_run (s : State) (steps : List (Context × Step)) (h : Sound s.catalog.cache) :
    Sound (s.run source steps).catalog.cache := by
  induction steps generalizing s with
  | nil => exact h
  | cons step steps ih => exact ih _ (sound_next source s step h)

theorem grown_run (s : State) {steps : List (Context × Step)} (h : ∀ p ∈ steps, p.2 ≠ .reload) :
    Grown s.catalog.cache (s.run source steps).catalog.cache := by
  induction steps generalizing s with
  | nil => exact .refl _
  | cons step steps ih =>
    obtain ⟨hstep, hsteps⟩ := List.forall_mem_cons.mp h
    exact (grown_next source s hstep).trans (ih _ hsteps)

end State

section

variable {source : Source} {folder : Option Entry} {context : Context} {c : Catalog}

theorem get_of_ok (h : (ensureLoaded source folder context c).1 = .ok ()) (name : String) :
    (get source folder context name c).1 =
      match (ensureLoaded source folder context c).2.1.cache.lookup name with
      | some t => .ok t
      | none => .error (.notFound name) := by
  rw [get_eq, h]

theorem get_of_error {e : CatalogError}
    (h : (ensureLoaded source folder context c).1 = .error e) (name : String) :
    (get source folder context name c).1 = .error e := by
  rw [get_eq, h]

theorem compile_of_error {name : String} {e : CatalogError}
    (h : (get source folder context name c).1 = .error e) (calls : Calls) :
    (compile source folder context name c calls).1.1 = .error e := by
  rw [compile_eq, h]

theorem missed_get (h : (ensureLoaded source folder context c).1 = .ok ()) (name : String) :
    (∃ e, (get source folder context name c).1 = .error e ∧ e.isKey = true) ↔
      name ∉ (ensureLoaded source folder context c).2.1.keys := by
  have hget := get_of_ok h name
  rw [keys, ← lookup_eq_none_iff]
  split at hget
  · rename_i t ht
    rw [hget, ht]
    simp
  · rename_i hn
    rw [hget, hn]
    exact ⟨fun _ => rfl, fun _ => ⟨_, rfl, rfl⟩⟩

theorem isKey_compile {t : Table} {e : CatalogError} {calls : Calls}
    (h : (t.compile source.compiler context calls).1.mapError .compile = .error e) :
    e.isKey = true ↔
      ∃ text, (t.compile source.compiler context calls).1 = .error (.fault (.key text)) := by
  cases hc : (t.compile source.compiler context calls).1 with
  | ok u =>
    rw [hc] at h
    cases h
  | error err =>
    rw [hc] at h
    cases h
    cases err with
    | fault f => cases f <;> simp [CatalogError.isKey]
    | limits | _ => simp [CatalogError.isKey]

/-- A table that is there is missed all the same when one of its default functions says that a key
is missing. -/
theorem missed_compile (h : (ensureLoaded source folder context c).1 = .ok ()) (name : String)
    (calls : Calls) :
    (∃ e, (compile source folder context name c calls).1.1 = .error e ∧ e.isKey = true) ↔
      name ∉ (ensureLoaded source folder context c).2.1.keys ∨
        ∃ t, (ensureLoaded source folder context c).2.1.cache.lookup name = some t ∧
          ∃ text, (t.compile source.compiler context calls).1 = .error (.fault (.key text)) := by
  have hget := get_of_ok h name
  rw [keys, ← lookup_eq_none_iff]
  split at hget
  · rename_i t ht
    have hcompile := compile_eq source folder context name c calls
    rw [hget] at hcompile
    dsimp only at hcompile
    rw [hcompile, ht]
    constructor
    · rintro ⟨e, he, hkey⟩
      exact .inr ⟨t, rfl, (isKey_compile he).mp hkey⟩
    · rintro (hnone | ⟨u, hu, text, hc⟩)
      · cases hnone
      · cases hu
        rw [hc]
        exact ⟨_, rfl, rfl⟩
  · rename_i hn
    rw [hn]
    exact iff_of_true ⟨_, compile_of_error hget calls, rfl⟩ (.inl rfl)

theorem isStructure_of_compile (h : Sound c.cache) {name : String} {calls : Calls}
    {e : CatalogError} (he : (compile source folder context name c calls).1.1 = .error e) :
    e.isStructure = false := by
  have hsound := (grown_ensureLoaded source folder context c).sound h
  cases hl : (ensureLoaded source folder context c).1 with
  | error err =>
    obtain ⟨f, rfl⟩ := fault_of_ensureLoaded source folder context hl
    rw [compile_of_error (get_of_error hl name)] at he
    cases he
    rfl
  | ok u =>
    have hget := get_of_ok hl name
    split at hget
    · rename_i t ht
      have hd : t.defects = [] := hsound.defects _ (mem_of_lookup ht)
      have hne : ∀ table defects,
          (t.compile source.compiler context calls).1 ≠ .error (.structure table defects) :=
        Table.compile_ne_structure hd calls
      rw [compile_eq, hget] at he
      dsimp only at he
      cases hc : (t.compile source.compiler context calls).1 with
      | ok u =>
        rw [hc] at he
        cases he
      | error err =>
        rw [hc] at he
        cases he
        cases err with
        | fault f => rfl
        | limits => rfl
        | _ table defects => exact absurd hc (hne table defects)
    · rw [compile_of_error hget] at he
      cases he
      rfl

structure Served (source : Source) (s : State) : Prop where
  keyed : ∀ key t, (key, t) ∈ s.catalog.cache → key = t.name
  keys : s.catalog.keys.Nodup
  found : ∀ name t, s.catalog.cache.lookup name = some t ↔ t ∈ s.catalog.tables ∧ t.name = name
  defects : ∀ t ∈ s.catalog.tables, t.defects = []
  looked : ∀ context name calls,
    (get source s.folder context name s.catalog).2.1 =
        (ensureLoaded source s.folder context s.catalog).2.1 ∧
      (compile source s.folder context name s.catalog calls).1.2.1 =
        (ensureLoaded source s.folder context s.catalog).2.1
  /-- Once the loading has ended well, only a name that is not there is missed. A table that is
  there does not compile when a default function of its own fails for a key. -/
  missed : ∀ context, (ensureLoaded source s.folder context s.catalog).1 = .ok () →
    ∀ name calls,
      ((∃ e, (get source s.folder context name s.catalog).1 = .error e ∧ e.isKey = true) ↔
        name ∉ (ensureLoaded source s.folder context s.catalog).2.1.keys) ∧
      ((∃ e, (compile source s.folder context name s.catalog calls).1.1 = .error e ∧
          e.isKey = true) ↔
        name ∉ (ensureLoaded source s.folder context s.catalog).2.1.keys ∨
        ∃ t, (ensureLoaded source s.folder context s.catalog).2.1.cache.lookup name = some t ∧
          ∃ text, (t.compile source.compiler context calls).1 = .error (.fault (.key text)))
  /-- A fault that ends the loading is what every request for a name fails with. -/
  faulty : ∀ context e, (ensureLoaded source s.folder context s.catalog).1 = .error e →
    (∃ f, e = .fault f) ∧ ∀ name calls,
      (get source s.folder context name s.catalog).1 = .error e ∧
      (compile source s.folder context name s.catalog calls).1.1 = .error e
  mild : (∀ folder, s.folder = some folder → ∀ f ∈ source.files folder, f.2.Mild) →
    ∀ context, (ensureLoaded source s.folder context s.catalog).1 = .ok ()
  compiled : ∀ context name calls e,
    (compile source s.folder context name s.catalog calls).1.1 = .error e → e.isStructure = false
  refused : ∀ context t, t.defects ≠ [] →
    register context t s.catalog = (.error (.structure t.name t.defects), s.catalog, [])
  /-- Names leave only when everything is loaded anew. -/
  kept : ∀ steps, (∀ p ∈ steps, p.2 ≠ .reload) →
    s.catalog.keys <+: (s.run source steps).catalog.keys

/-- After any requests, with the folder changed in any way between them: tables are kept under
their names, no two under one, and none contradicts itself. -/
theorem served_run (source : Source) (folder : Option Entry) (calls : Calls)
    (steps : List (Context × Step)) :
    Served source (State.run source ⟨folder, .empty, calls⟩ steps) := by
  have hsound := State.sound_run source ⟨folder, .empty, calls⟩ steps sound_nil
  generalize State.run source ⟨folder, .empty, calls⟩ steps = s at hsound ⊢
  refine ⟨fun _ _ h => hsound.keyed _ h, hsound.keys, fun _ _ => lookup_eq_some_iff hsound, ?_, ?_,
    ?_, ?_, ?_, fun _ _ _ _ => isStructure_of_compile hsound,
    fun context t h => register_of_defects h context s.catalog,
    fun _ h => (State.grown_run source s h).keys⟩
  · intro t ht
    obtain ⟨e, he, rfl⟩ := List.mem_map.mp ht
    exact hsound.defects e he
  · intro context name calls
    exact ⟨congrArg Prod.fst (get_snd ..), compile_catalog ..⟩
  · intro context hl name calls
    exact ⟨missed_get hl name, missed_compile hl name calls⟩
  · intro context e he
    have hget := get_of_error he
    exact ⟨fault_of_ensureLoaded _ _ _ he, fun name calls =>
      ⟨hget name, compile_of_error (hget name) calls⟩⟩
  · intro h context
    exact ensureLoaded_ok _ _ context h s.catalog

end

/-- A folder in which the loading ends at a word that is no truth, after a table was put into the
catalog. -/
def broken : Entry :=
  .folder [("a.yaml", noteFile), ("b.yaml", .file "!!bool maybe".toUTF8.toList)]

theorem get_broken :
    (get usualSource (some broken) .empty "notes" .empty).1 =
        .error (.fault (.unknownTruth "maybe")) ∧
      CatalogError.isKey (.fault (.unknownTruth "maybe")) = true ∧
      "notes" ∈ (ensureLoaded usualSource (some broken) .empty .empty).2.1.keys := by
  obtain ⟨t, ht, hname, -⟩ := exists_table?_noteFile
  rw [Entry.table?_eq_some_iff_load] at ht
  have hfault :
      (Entry.file "!!bool maybe".toUTF8.toList).fault? = some (.unknownTruth "maybe") := by
    decide +kernel
  have hyaml : broken.namesWith ".yaml" = ["a.yaml", "b.yaml"] := by
    have hf : (broken.entries.map (·.1)).filter (".yaml".toList.isSuffixOf ·.toList) =
        ["a.yaml", "b.yaml"] := rfl
    rw [Entry.namesWith, hf]
    simp [List.mergeSort]
  have hyml : broken.namesWith ".yml" = [] := by
    have hf : (broken.entries.map (·.1)).filter (".yml".toList.isSuffixOf ·.toList) = [] := rfl
    rw [Entry.namesWith, hf, List.mergeSort_nil]
  have hfiles : usualSource.files broken = [(usualSource.directory.child "a.yaml", noteFile),
      (usualSource.directory.child "b.yaml", .file "!!bool maybe".toUTF8.toList)] := by
    have hendings : usualSource.endings = [".yaml", ".yml"] := rfl
    rw [Source.files, hendings, List.flatMap_cons, List.flatMap_singleton, hyaml, hyml]
    rfl
  obtain ⟨records, hload⟩ : ∃ records, loadFiles .empty (usualSource.files broken) empty.cache =
      (.error (.unknownTruth "maybe"), [(t.name, t)], records) := by
    rw [hfiles, loadFiles_cons_ok .empty ht, loadFiles_cons_fatal .empty hfault]
    exact ⟨_, rfl⟩
  have hensure : ensureLoaded usualSource (some broken) .empty empty =
      (.error (.fault (.unknownTruth "maybe")), ⟨[(t.name, t)], false⟩, records) := by
    rw [ensureLoaded, loadAll, hload]
    rfl
  refine ⟨get_of_error (by rw [hensure]) "notes", rfl, ?_⟩
  rw [hensure, keys, List.map_singleton, hname]
  exact List.mem_singleton_self "notes"

end Catalog

end Tablewright
