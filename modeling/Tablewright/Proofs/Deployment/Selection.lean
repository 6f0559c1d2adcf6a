import Tablewright.Deployment
import Tablewright.Proofs.Catalog.Requests

namespace Tablewright

open Log (Context Record)

namespace Catalog

variable {source : Source} {folder : Option Entry} {context : Context} {c : Catalog}

theorem isLoaded_of_loadAll {n : Nat} (h : (loadAll source folder context c).1 = .ok n) :
    (loadAll source folder context c).2.1.isLoaded = true := by
  cases folder with
  | none => rfl
  | some folder =>
    rw [loadAll] at h ⊢
    generalize loadFiles context (source.files folder) c.cache = loaded at h ⊢
    obtain ⟨count, cache, records⟩ := loaded
    cases count with
    | error f => cases h
    | ok n => rfl

theorem compile_of_isLoaded (h : c.isLoaded = true) (name : String) (calls : Calls) :
    compile source folder context name c calls =
      match c.cache.lookup name with
      | none => ((.error (.notFound name), c, []), calls)
      | some t =>
        (((t.compile source.compiler context calls).1.mapError .compile, c,
            (t.compile source.compiler context calls).2.2),
          (t.compile source.compiler context calls).2.1) := by
  have hensure : ensureLoaded source folder context c = (.ok (), c, []) := by
    rw [ensureLoaded, if_pos h]
  rw [compile, get_eq, hensure]
  dsimp only
  split
  · cases hf : c.cache.lookup name <;> simp_all
  · cases hf : c.cache.lookup name <;> simp_all

end Catalog

namespace Deployment

variable {source : Source} {folder : Option Entry}

def Compiles (source : Source) (catalog : Catalog) (name : String) (c : Compiled) : Prop :=
  c.name = name ∧ ∃ t, catalog.cache.lookup name = some t ∧
    ∃ calls later records, t.compile source.compiler .empty calls = (.ok c, later, records)

theorem exists_of_compileAll {catalog : Catalog} (hl : catalog.isLoaded = true)
    (hk : Catalog.Keyed catalog.cache) {names : List String} {calls : Calls} {cs : List Compiled}
    {records : List Record}
    (h : compileAll source folder names catalog calls = (.ok cs, records)) :
    List.Forall₂ (Compiles source catalog) names cs := by
  induction names generalizing calls cs records with
  | nil =>
    cases h
    exact .nil
  | cons name names ih =>
    rw [compileAll, Catalog.compile_of_isLoaded hl] at h
    cases hf : catalog.cache.lookup name with
    | none =>
      rw [hf] at h
      cases h
    | some t =>
      rw [hf] at h
      dsimp only at h
      cases hc : t.compile source.compiler .empty calls with
      | mk result more =>
        rw [hc] at h
        cases result with
        | error e => cases h
        | ok c =>
          dsimp only [Except.mapError] at h
          generalize hrest : compileAll source folder names catalog more.1 = rest at h
          obtain ⟨result, later⟩ := rest
          cases result with
          | error e => cases h
          | ok cs =>
            cases h
            have hname : name = t.name := hk _ (Catalog.mem_of_lookup hf)
            refine .cons ⟨?_, t, hf, calls, more.1, more.2, hc⟩ (ih hrest)
            obtain ⟨us, m, -, -, rfl⟩ := Table.exists_of_compile hc
            exact hname.symm

namespace Request

variable (r : Request) (source : Source) (folder : Option Entry)

def compiled? : Option (List Compiled) :=
  match Catalog.loadAll source folder .empty .empty with
  | (.error _, _, _) => none
  | (.ok _, catalog, _) =>
    let names := r.selection catalog.names
    if names.isEmpty then none else (compileAll source folder names catalog []).1.toOption

def known : Catalog := (Catalog.loadAll source folder .empty .empty).2.1

theorem keyed_known : Catalog.Keyed (known source folder).cache :=
  ((Catalog.grown_loadAll source folder .empty .empty).sound Catalog.sound_nil).keyed

structure Selected (cs : List Compiled) : Prop where
  loaded : ∃ n, (Catalog.loadAll source folder .empty .empty).1 = .ok n
  nonempty : cs ≠ []
  tables : List.Forall₂ (Compiles source (known source folder))
    (r.selection (known source folder).names) cs

variable {r source folder}

theorem selected_of_compiled? {cs : List Compiled} (h : r.compiled? source folder = some cs) :
    r.Selected source folder cs := by
  rw [compiled?] at h
  generalize hload : Catalog.loadAll source folder .empty .empty = loaded at h
  obtain ⟨result, catalog, records⟩ := loaded
  cases result with
  | error e => cases h
  | ok n =>
    have hok : (Catalog.loadAll source folder .empty .empty).1 = .ok n := by rw [hload]
    have hl := Catalog.isLoaded_of_loadAll hok
    dsimp only at h
    split at h
    · cases h
    · rename_i hne
      generalize hc : compileAll source folder (r.selection catalog.names) catalog [] = o at h
      obtain ⟨compiled, more⟩ := o
      cases compiled with
      | error e => cases h
      | ok cs' =>
        cases h
        have hcatalog : known source folder = catalog := by rw [known, hload]
        have hk := keyed_known source folder
        rw [hcatalog] at hk
        rw [hload] at hl
        have htables := exists_of_compileAll hl hk hc
        refine ⟨⟨n, hok⟩, ?_, ?_⟩
        · rintro rfl
          exact hne (List.isEmpty_iff.mpr (List.forall₂_nil_right_iff.mp htables))
        · rw [hcatalog]
          exact htables

/-- A table that is asked for and not there keeps the others from being deployed. -/
theorem compiled?_of_unknown {name : String} (hn : name ∈ r.tables)
    (hu : name ∉ (known source folder).names) : r.compiled? source folder = none := by
  by_contra hc
  obtain ⟨cs, hcs⟩ := Option.ne_none_iff_exists'.mp hc
  have hsel : r.selection (known source folder).names = r.tables := by
    rw [selection, if_neg]
    rw [List.isEmpty_iff]
    exact List.ne_nil_of_mem hn
  have htables := (selected_of_compiled? hcs).tables
  rw [hsel] at htables
  obtain ⟨⟨i, hi⟩, rfl⟩ := List.get_of_mem hn
  obtain ⟨-, t, hf, -⟩ := htables.get hi (htables.length_eq ▸ hi)
  rw [Catalog.names_eq_keys (keyed_known source folder), Catalog.keys,
    ← Catalog.lookup_eq_none_iff, hf] at hu
  cases hu

end Request

open Request

variable {r : Request} {cs : List Compiled}

def exitStatus : Except CatalogError Report → Nat
  | .error _ => 1
  | .ok report => report.status

def actionsOf : Except CatalogError Report → List Database.Action
  | .error _ => []
  | .ok report => report.actions

/-- What is reported on the way to the compiled tables does not depend on what becomes of them. -/
theorem run_of_compiled (h : r.compiled? source folder = some cs) :
    ∃ before : List Record, ∀ refusals,
      run r source folder refusals =
        if r.isPreview then .ok ⟨0, before.map .record ++ lines (cs.flatMap previewLines), []⟩
        else .ok { execute r.database cs refusals with
          output := before.map .record ++ (execute r.database cs refusals).output } := by
  rw [compiled?] at h
  generalize hload : Catalog.loadAll source folder .empty .empty = loaded at h
  obtain ⟨result, catalog, records⟩ := loaded
  cases result with
  | error e => cases h
  | ok n =>
    dsimp only at h
    split at h
    · cases h
    · rename_i hne
      generalize hc : compileAll source folder (r.selection catalog.names) catalog [] = o at h
      obtain ⟨compiled, more⟩ := o
      cases compiled with
      | error e => cases h
      | ok cs' =>
        cases h
        refine ⟨records ++ more, fun refusals => ?_⟩
        rw [run, hload]
        dsimp only
        rw [if_neg hne, hc]

theorem run_of_not_compiled (h : r.compiled? source folder = none) (refusals : Database.Refusals) :
    exitStatus (run r source folder refusals) = 1 ∧
      actionsOf (run r source folder refusals) = [] := by
  rw [compiled?] at h
  rw [run]
  generalize Catalog.loadAll source folder .empty .empty = loaded at h ⊢
  obtain ⟨result, catalog, records⟩ := loaded
  cases result with
  | error e => exact ⟨rfl, rfl⟩
  | ok n =>
    dsimp only at h ⊢
    split at h
    · rename_i hempty
      rw [if_pos hempty]
      exact ⟨rfl, rfl⟩
    · rename_i hne
      rw [if_neg hne]
      generalize compileAll source folder (r.selection catalog.names) catalog [] = o at h ⊢
      obtain ⟨compiled, more⟩ := o
      cases compiled with
      | ok cs => cases h
      | error e =>
        dsimp only
        cases explain? e <;> exact ⟨rfl, rfl⟩

end Deployment

end Tablewright
