import Tablewright.Catalog.Definition
import Tablewright.Table.Compiled

namespace Tablewright

open Log (Context Event Record)

/-- Where the definitions of tables lie, and how the tables are compiled. -/
structure Source where
  directory : Path
  endings : List String
  compiler : CompilerSettings
  deriving DecidableEq, Repr, Inhabited

namespace Source

/-- The place that is asked for, or else the one of the settings, which may lie in a home folder. -/
def ofSettings (settings : Settings) (home : Path) (directory : String)
    (compiler : CompilerSettings) : Source where
  directory :=
    if directory.isEmpty then (Path.ofText settings.loader.directory).under home
    else .ofText directory
  endings := settings.loader.endings
  compiler := compiler

def files (s : Source) (folder : Entry) : List (Path × Entry) :=
  s.endings.flatMap fun ending =>
    (folder.namesWith ending).filterMap fun name =>
      (folder.entries.lookup name).map fun e => (s.directory.child name, e)

end Source

/-- The tables known by name, in the order in which their names came, and whether the files have
been looked at. -/
structure Catalog where
  cache : List (String × Table)
  isLoaded : Bool
  deriving Inhabited

inductive CatalogError
  | fault (f : Yaml.Fault)
  | notFound (name : String)
  | structure (table : String) (defects : List Defect)
  | compile (e : CompileError)
  deriving Inhabited

namespace CatalogError

def notFoundMessage (name : String) : String := "Table not found: " ++ name

def structureMessage (table : String) (defects : List Defect) : String :=
  "Invalid table '" ++ table ++ "': " ++ (Value.list (defects.map fun d => .text d.message)).written

end CatalogError

namespace Catalog

abbrev Outcome (α : Type) := Except CatalogError α × Catalog × List Record

def empty : Catalog := ⟨[], false⟩

def tables (c : Catalog) : List Table := c.cache.map (·.2)

def names (c : Catalog) : List String := c.tables.map (·.name)

def insert (t : Table) : List (String × Table) → List (String × Table)
  | [] => [(t.name, t)]
  | (name, u) :: rest => if name == t.name then (name, t) :: rest else (name, u) :: insert t rest

theorem lookup_insert_self (t : Table) (cache : List (String × Table)) :
    (insert t cache).lookup t.name = some t := by
  induction cache with
  | nil => simp [insert]
  | cons e rest ih =>
    rw [insert]
    split
    · simp_all
    · rename_i hne
      have hne : (t.name == e.1) = false := beq_eq_false_iff_ne.mpr fun h => hne (by simp [h])
      rw [List.lookup_cons, hne, ih]

theorem lookup_insert_of_ne {t : Table} {name : String} (h : t.name ≠ name)
    (cache : List (String × Table)) : (insert t cache).lookup name = cache.lookup name := by
  have hne : (name == t.name) = false := beq_eq_false_iff_ne.mpr (Ne.symm h)
  induction cache with
  | nil => rw [insert, List.lookup_cons, hne]
  | cons e rest ih =>
    rw [insert]
    split
    · rename_i he
      have he : e.1 = t.name := eq_of_beq he
      rw [List.lookup_cons, List.lookup_cons, he, hne]
    · rw [List.lookup_cons, List.lookup_cons, ih]

def loadedEvents (cache : List (String × Table)) (path : Path) (t : Table) : List Event :=
  (if (cache.lookup t.name).isSome then [.redefined t.name path.text] else [])
    ++ [.loaded t.name t.columns.length]

/-- Load files in turn: the number of those that define a table, the tables then, and what was
reported. -/
def loadFiles (context : Context) : List (Path × Entry) → List (String × Table) →
    Except Yaml.Fault Nat × List (String × Table) × List Record
  | [], cache => (.ok 0, cache, [])
  | (path, e) :: files, cache =>
    match Table.load e with
    | .ok t =>
      let (count, after, records) := loadFiles context files (insert t cache)
      (count.map (· + 1), after, (loadedEvents cache path t).map (·.record context) ++ records)
    | .error err =>
      match err.fatal? with
      | some f => (.error f, cache, [])
      | none =>
        let (count, after, records) := loadFiles context files cache
        (count, after, (Event.unloadable path.text (err.reason path)).record context :: records)

variable (source : Source) (folder : Option Entry) (context : Context)

def loadAll (c : Catalog) : Outcome Nat :=
  match folder with
  | none =>
    (.ok 0, { c with isLoaded := true },
      [(Event.directoryMissing source.directory.text).record context])
  | some folder =>
    match loadFiles context (source.files folder) c.cache with
    | (.error f, cache, records) => (.error (.fault f), { c with cache }, records)
    | (.ok n, cache, records) =>
      (.ok n, ⟨cache, true⟩,
        records ++ [(Event.loadedAll n source.directory.text).record context])

def reload (_ : Catalog) : Outcome Nat := loadAll source folder context empty

def ensureLoaded (c : Catalog) : Outcome Unit :=
  if c.isLoaded then (.ok (), c, [])
  else
    let (result, c, records) := loadAll source folder context c
    (result.map fun _ => (), c, records)

def get? (name : String) (c : Catalog) : Outcome (Option Table) :=
  let (result, c, records) := ensureLoaded source folder context c
  (result.map fun _ => c.cache.lookup name, c, records)

def get (name : String) (c : Catalog) : Outcome Table :=
  match get? source folder context name c with
  | (.error e, c, records) => (.error e, c, records)
  | (.ok (some t), c, records) => (.ok t, c, records)
  | (.ok none, c, records) => (.error (.notFound name), c, records)

def list (c : Catalog) : Outcome (List Table) :=
  let (result, c, records) := ensureLoaded source folder context c
  (result.map fun _ => c.tables, c, records)

def register (t : Table) (c : Catalog) : Outcome Unit :=
  if t.defects.isEmpty then
    (.ok (), { c with cache := insert t c.cache }, [(Event.registered t.name).record context])
  else (.error (.structure t.name t.defects), c, [])

def compile (name : String) (c : Catalog) (calls : Calls) : Outcome Compiled × Calls :=
  match get source folder context name c with
  | (.error e, c, records) => ((.error e, c, records), calls)
  | (.ok t, c, records) =>
    let (result, calls, more) := t.compile source.compiler context calls
    ((result.mapError .compile, c, records ++ more), calls)

end Catalog

end Tablewright
