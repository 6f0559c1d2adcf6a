import Tablewright.Proofs.Row.Limits
import Tablewright.Proofs.Table.Compiled
import Tablewright.Proofs.Table.Definition

namespace Tablewright.Table

open Log (Context Record)

variable (settings : CompilerSettings) (context : Context)

/-- The limits of all scalars make sense, in every column at every depth. -/
def Fits (t : Table) : Prop := ∀ c ∈ t.columns, ∀ s ∈ c.rule.everyScalar, s.Fits

instance (t : Table) : Decidable t.Fits :=
  inferInstanceAs (Decidable (∀ c ∈ t.columns, ∀ s ∈ c.rule.everyScalar, s.Fits))

theorem isSome_rowModel? (suffix : String) (t : Table) :
    (rowModel? suffix t.name t.columns).isSome = true ↔ t.Fits := by
  rw [rowModel?, Row.isSome_ofColumns?, List.forall_mem_map]
  rfl

/-- What stands in the way of compiling a table without defects, the first thing first: a number in
a definition that is too long, a name that no class can have, or a limit that makes no sense. -/
def obstacle? (settings : CompilerSettings) (t : Table) (us : List Unwrapped) :
    Option CompileError :=
  if Sql.Written t.columns us then
    if '\x00' ∈ settings.rowSuffix.toList then some (.fault badName)
    else if t.Fits then none else some .limits
  else some (.fault .tooManyDigits)

theorem obstacle?_eq_none {settings : CompilerSettings} {t : Table} {us : List Unwrapped} :
    obstacle? settings t us = none ↔
      Sql.Written t.columns us ∧ '\x00' ∉ settings.rowSuffix.toList ∧ t.Fits := by
  rw [obstacle?]
  split_ifs <;> simp_all

theorem model_eq_of_fits (suffix : String) (t : Table) :
    (∃ m, model suffix t.name t.columns = .ok m) ∧ '\x00' ∉ suffix.toList ∧ t.Fits ∨
      '\x00' ∈ suffix.toList ∧ model suffix t.name t.columns = .error (.fault badName) ∨
      '\x00' ∉ suffix.toList ∧ ¬t.Fits ∧ model suffix t.name t.columns = .error .limits := by
  rw [model, ← isSome_rowModel? suffix t]
  by_cases hs : '\x00' ∈ suffix.toList
  · exact .inr (.inl ⟨hs, if_pos (List.contains_iff_mem.mpr hs)⟩)
  · rw [if_neg (mt List.contains_iff_mem.mp hs)]
    cases rowModel? suffix t.name t.columns with
    | none => exact .inr (.inr ⟨hs, by simp, rfl⟩)
    | some m => exact .inl ⟨⟨m, rfl⟩, hs, rfl⟩

/-- What a table without defects is compiled to, when its rules are unwrapped to these. -/
theorem compile_of_unwrapped {t : Table} (hd : t.defects = []) {us : List Unwrapped}
    {calls mid : Calls} (hus : t.columns.mapM (·.rule.unwrap) calls = (.ok us, mid)) :
    ∃ later records,
      (obstacle? settings t us = none ∧ later = mid ∧
        ∃ compiled, t.compile settings context calls = (.ok compiled, later, records)) ∨
      ∃ e, obstacle? settings t us = some e ∧
        t.compile settings context calls = (.error e, later, records) := by
  have heq := compile_eq settings context hd calls
  by_cases hw : Sql.Written t.columns us
  · obtain ⟨written, hparts⟩ := defineColumns_eq (context.withTable t.name "compile") hus hw
    rw [hparts] at heq
    dsimp only at heq
    generalize t.compile settings context calls = o at heq ⊢
    obtain ⟨result, after, records⟩ := o
    obtain ⟨rfl, rfl⟩ := Prod.mk.inj heq
    refine ⟨after, records, ?_⟩
    obtain ⟨⟨m, hm⟩, hs, hfits⟩ | ⟨hs, hm⟩ | ⟨hs, hfits, hm⟩ :=
      model_eq_of_fits settings.rowSuffix t
    · exact .inl ⟨obstacle?_eq_none.mpr ⟨hw, hs, hfits⟩, rfl, _, by rw [hm]; rfl⟩
    · exact .inr ⟨_, by rw [obstacle?, if_pos hw, if_pos hs], by rw [hm]; rfl⟩
    · exact .inr ⟨_, by rw [obstacle?, if_pos hw, if_neg hs, if_neg hfits], by rw [hm]; rfl⟩
  · obtain ⟨last, written, hparts⟩ :=
      defineColumns_of_unwritten (context.withTable t.name "compile") hus hw
    rw [hparts] at heq
    dsimp only at heq
    generalize t.compile settings context calls = o at heq ⊢
    obtain ⟨result, after, records⟩ := o
    obtain ⟨rfl, rfl⟩ := Prod.mk.inj heq
    exact ⟨after, records, .inr ⟨_, if_neg hw, rfl⟩⟩

/-- A table whose functions give values is compiled, unless it contradicts itself or something
stands in its way: these are all the errors there are. -/
theorem compiles_iff {t : Table} (hf : ∀ c ∈ t.columns, ∀ f ∈ c.rule.factories, f.Supplies)
    (calls : Calls) : ∃ us mid,
    t.columns.mapM (·.rule.unwrap) calls = (.ok us, mid) ∧
    ((∃ compiled later records,
        t.compile settings context calls = (.ok compiled, later, records)) ↔
      t.defects = [] ∧ Sql.Written t.columns us ∧
        '\x00' ∉ settings.rowSuffix.toList ∧ t.Fits) ∧
    (t.defects ≠ [] → t.compile settings context calls =
      (.error (.structure t.name t.defects), calls,
        defectRecords (context.withTable t.name "compile") t)) ∧
    (t.defects = [] → ∀ e, obstacle? settings t us = some e → ∃ later records,
      t.compile settings context calls = (.error e, later, records)) := by
  obtain ⟨us, mid, hus⟩ := Run.Returns.mapM (fun c hc => Rule.returns_unwrap (hf c hc)) calls
  refine ⟨us, mid, hus, ⟨?_, ?_⟩, fun hd => compile_of_defects settings context hd calls, ?_⟩
  · rintro ⟨compiled, later, records, h⟩
    have hd := defects_of_compile h
    obtain ⟨_, _, ⟨hnone, -⟩ | ⟨e, -, herror⟩⟩ := compile_of_unwrapped settings context hd hus
    · exact ⟨hd, obstacle?_eq_none.mp hnone⟩
    · rw [h] at herror
      cases herror
  · rintro ⟨hd, hnone⟩
    obtain ⟨later, records, ⟨-, -, compiled, h⟩ | ⟨e, hsome, -⟩⟩ :=
      compile_of_unwrapped settings context hd hus
    · exact ⟨compiled, later, records, h⟩
    · rw [obstacle?_eq_none.mpr hnone] at hsome
      cases hsome
  · intro hd e he
    obtain ⟨later, records, ⟨hnone, -⟩ | ⟨e', hsome, h⟩⟩ :=
      compile_of_unwrapped settings context hd hus
    · rw [hnone] at he
      cases he
    · cases he.symm.trans hsome
      exact ⟨later, records, h⟩

def levels (minimum : Number) : Table where
  name := "levels"
  columns := [⟨"level", .layer [] (.default .null (some (.counter 0 1)))
    (.array [] (.scalar [] (.number ⟨.int32, some minimum, none, none, none⟩))), false, none⟩]
  primaryKeys := []
  indexes := []
  description := none

def half : Binary64 := .ofRatio false 1 2

theorem supplies_levels (minimum : Number) :
    ∀ c ∈ (levels minimum).columns, ∀ f ∈ c.rule.factories, f.Supplies := by
  intro c hc f hf n
  cases List.mem_singleton.mp hc
  cases List.mem_singleton.mp hf
  exact ⟨_, rfl⟩

theorem compiles_iff_levels :
    (∀ c ∈ (levels (.int 0)).columns, ∀ f ∈ c.rule.factories, f.Supplies) ∧
    (∃ compiled later records,
      (levels (.int 0)).compile ⟨false, "Row"⟩ .empty [] = (.ok compiled, later, records)) ∧
    (∃ later records, (levels (.int 0)).compile ⟨false, "R\x00"⟩ .empty [] =
      (.error (.fault badName), later, records)) ∧
    ∃ later records, (levels (.float half)).compile ⟨false, "Row"⟩ .empty [] =
      (.error .limits, later, records) := by
  have hwhole : (levels (.int 0)).Fits := by decide +kernel
  have hpart : ¬(levels (.float half)).Fits := by decide +kernel
  have hzero {us : List Unwrapped} {mid : Calls}
      (h : (levels (.int 0)).columns.mapM (·.rule.unwrap) [] = (.ok us, mid)) :
      Sql.Written (levels (.int 0)).columns us := by
    cases h
    exact List.forall_mem_singleton.mpr (by decide +kernel)
  have hhalf {us : List Unwrapped} {mid : Calls}
      (h : (levels (.float half)).columns.mapM (·.rule.unwrap) [] = (.ok us, mid)) :
      Sql.Written (levels (.float half)).columns us := by
    cases h
    exact List.forall_mem_singleton.mpr (by decide +kernel)
  obtain ⟨us, mid, hus, hiff, -⟩ :=
    compiles_iff ⟨false, "Row"⟩ .empty (supplies_levels (.int 0)) []
  obtain ⟨us', mid', hus', -, -, hname⟩ :=
    compiles_iff ⟨false, "R\x00"⟩ .empty (supplies_levels (.int 0)) []
  obtain ⟨us'', mid'', hus'', -, -, hlimits⟩ :=
    compiles_iff ⟨false, "Row"⟩ .empty (supplies_levels (.float half)) []
  refine ⟨supplies_levels (.int 0), hiff.mpr ⟨rfl, hzero hus, by decide, hwhole⟩,
    hname rfl _ ?_, hlimits rfl _ ?_⟩
  · rw [obstacle?, if_pos (hzero hus'), if_pos (by decide)]
  · rw [obstacle?, if_pos (hhalf hus''), if_neg (by decide), if_neg hpart]

def halved : Value :=
  .dict [(.text "name", .text "t"),
    (.text "columns", .list [.dict [(.text "name", .text "n"),
      (.text "rule", .dict [(.text "kind", .text "number"), (.text "format", .text "int32"),
        (.text "minimum", .float half)])]])]

def hasLimits : Except CompileError Compiled → Bool
  | .error .limits => true
  | _ => false

theorem limits_halved :
    ∃ t, Table.read .none halved = .ok t ∧ t.defects = [] ∧
      (∀ c ∈ t.columns, c.rule.factories = []) ∧
      (t.compile ⟨false, "Row"⟩ .empty []).1 = .error .limits := by
  have hread : (Table.read .none halved).toOption.any (fun t =>
      t.defects.isEmpty && t.columns.all (·.rule.factories.isEmpty)
        && hasLimits (t.compile ⟨false, "Row"⟩ .empty []).1) = true := by
    decide +kernel
  cases hr : Table.read .none halved with
  | error issues =>
    rw [hr] at hread
    cases hread
  | ok t =>
    rw [hr] at hread
    obtain ⟨hd, hl⟩ := Bool.and_eq_true_iff.mp hread
    obtain ⟨hd, hf⟩ := Bool.and_eq_true_iff.mp hd
    refine ⟨t, rfl, List.isEmpty_iff.mp hd, fun c hc => ?_, ?_⟩
    · exact List.isEmpty_iff.mp (List.all_eq_true.mp hf c hc)
    unfold hasLimits at hl
    split at hl
    · assumption
    · cases hl

end Tablewright.Table
