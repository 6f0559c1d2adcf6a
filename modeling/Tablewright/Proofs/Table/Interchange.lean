import Mathlib.Data.List.Forall2
import Tablewright.Proofs.Rule.Layers
import Tablewright.Table.Compiled

namespace Tablewright

open Log (Context)

def StringFormat.Interchangeable (f g : Option StringFormat) : Prop :=
  f = g ∨ (f.any isTemporal = false ∧ g.any isTemporal = false)

def NumberFormat.Interchangeable (f g : NumberFormat) : Prop :=
  f = g ∨ (f.isInteger = true ∧ g.isInteger = true)
    ∨ (f ∈ [float32, float64] ∧ g ∈ [float32, float64])

/-- Scalars that differ at most in interchangeable formats and in exclusive bounds. -/
inductive Scalar.Interchangeable : Scalar → Scalar → Prop
  | refl (s : Scalar) : Interchangeable s s
  | string {r s : StringRule} (format : StringFormat.Interchangeable r.format s.format)
    (minLength : r.minLength = s.minLength) (maxLength : r.maxLength = s.maxLength)
    (exactLength : r.exactLength = s.exactLength) : Interchangeable (.string r) (.string s)
  | number {r s : NumberRule} (format : r.format.Interchangeable s.format)
    (minimum : r.minimum = s.minimum) (maximum : r.maximum = s.maximum) :
    Interchangeable (.number r) (.number s)

/-- Leaves that differ at most in what only rows are checked for: refinements, formats and
exclusive bounds, and whatever is below an array, an object, or a union with other options than
literals. -/
inductive Rule.Interchangeable : Rule → Rule → Prop
  | scalar {cs ds : List Refinement} {s t : Scalar} (h : s.Interchangeable t) :
    Interchangeable (.scalar cs s) (.scalar ds t)
  | literals {cs ds : List Refinement} {options others : List Rule}
    (all : areLiterals options = true) (allOthers : areLiterals others = true)
    (h : options.map (withChecks []) = others.map (withChecks [])) :
    Interchangeable (.union cs options) (.union ds others)
  | union {cs ds : List Refinement} {options others : List Rule}
    (some : areLiterals options = false) (someOthers : areLiterals others = false) :
    Interchangeable (.union cs options) (.union ds others)
  | array (cs ds : List Refinement) (items others : Rule) :
    Interchangeable (.array cs items) (.array ds others)
  | object (cs ds : List Refinement) (shape other : List (String × Rule)) :
    Interchangeable (.object cs shape) (.object ds other)

/-- Columns of one name and one place in the table, whose rules say the same to the database. -/
structure Column.Interchangeable (c d : Column) : Prop where
  name : c.name = d.name
  unique : c.unique = d.unique
  references : c.references = d.references
  nullable : c.rule.layers.any Rule.admitsNull = d.rule.layers.any Rule.admitsNull
  default : c.rule.source? = d.rule.source?
  leaf : c.rule.leaf.Interchangeable d.rule.leaf

/-- Tables that say the same to the database. -/
structure Table.Interchangeable (t u : Table) : Prop where
  name : t.name = u.name
  columns : List.Forall₂ Column.Interchangeable t.columns u.columns
  primaryKeys : t.primaryKeys = u.primaryKeys
  indexes : t.indexes = u.indexes

namespace Sql

theorem stringStorage_eq {f g : Option StringFormat} (h : StringFormat.Interchangeable f g) :
    stringStorage f = stringStorage g := by
  obtain rfl | ⟨hf, hg⟩ := h
  · rfl
  · have htext {f : Option StringFormat} (hf : f.any StringFormat.isTemporal = false) :
        stringStorage f = .text := by
      obtain _ | f := f
      · rfl
      · cases f <;> first | rfl | cases hf
    rw [htext hf, htext hg]

theorem numberStorage_eq {f g : NumberFormat} (h : f.Interchangeable g) :
    numberStorage f = numberStorage g := by
  obtain rfl | ⟨hf, hg⟩ | ⟨hf, hg⟩ := h
  · rfl
  · have hinteger {f : NumberFormat} (hf : f.isInteger = true) : numberStorage f = .integer := by
      cases f <;> first | rfl | cases hf
    rw [hinteger hf, hinteger hg]
  · have hfloat {f : NumberFormat} (hf : f ∈ [.float32, .float64]) : numberStorage f = .float := by
      simp only [List.mem_cons, List.not_mem_nil, or_false] at hf
      obtain rfl | rfl := hf <;> rfl
    rw [hfloat hf, hfloat hg]

theorem storage?_eq {r s : Rule} (h : r.Interchangeable s) : storage? r = storage? s := by
  cases h with
  | scalar h =>
    cases h with
    | refl => rfl
    | string format => exact congrArg some (stringStorage_eq format)
    | number format => exact congrArg some (numberStorage_eq format)
  | literals | union | array | object => rfl

theorem storage_eq {r s : Rule} (h : r.Interchangeable s) : storage r = storage s := by
  rw [storage, storage, storage?_eq h]

theorem kind_eq {r s : Rule} (h : r.Interchangeable s) : r.kind = s.kind := by
  cases h with
  | scalar h => cases h <;> rfl
  | literals | union | array | object => rfl

theorem literalValues_withChecks (options : List Rule) :
    Rule.literalValues (options.map (Rule.withChecks [])) = Rule.literalValues options := by
  induction options with
  | nil => rfl
  | cons r rs ih =>
    rw [Rule.literalValues, Rule.literalValues] at ih
    rw [Rule.literalValues, Rule.literalValues, List.map_cons, List.flatMap_cons,
      List.flatMap_cons, ih]
    cases r with
    | scalar cs s => cases s <;> rfl
    | layer | union | array | object => rfl

theorem conditions_eq {r s : Rule} (h : r.leaf.Interchangeable s.leaf) :
    conditions r = conditions s := by
  unfold conditions
  generalize r.leaf = l at h
  generalize s.leaf = m at h
  cases h with
  | scalar h =>
    cases h with
    | refl =>
      rename_i scalar
      cases scalar <;> rfl
    | string _ hmin hmax hexact => simp only [lengthConditions, hmin, hmax, hexact]
    | number _ hmin hmax => simp only [boundConditions, hmin, hmax]
  | literals all allOthers h =>
    have hv := congrArg Rule.literalValues h
    rw [literalValues_withChecks, literalValues_withChecks] at hv
    simp only [all, allOthers, hv, if_true]
  | union some someOthers => simp [some, someOthers]
  | array | object => rfl

section

variable {c d : Column} (h : c.Interchangeable d) (nullable : Bool) (default : Option Value)

include h

theorem columnText_eq : columnText c ⟨c.rule.leaf, nullable, default⟩ =
    columnText d ⟨d.rule.leaf, nullable, default⟩ := by
  simp only [columnText, clauses, check?, h.name, h.unique, h.references, storage_eq h.leaf,
    conditions_eq h.leaf]

theorem clauseEvents_eq : clauseEvents ⟨c.rule.leaf, nullable, default⟩ =
    clauseEvents ⟨d.rule.leaf, nullable, default⟩ := by
  rw [clauseEvents, clauseEvents, storageEvents, storageEvents, hasDefaults, hasDefaults,
    storage_eq h.leaf, storage?_eq h.leaf, kind_eq h.leaf]

theorem columnEvents_eq : columnEvents c ⟨c.rule.leaf, nullable, default⟩ =
    columnEvents d ⟨d.rule.leaf, nullable, default⟩ := by
  rw [columnEvents, columnEvents, clauseEvents_eq h, columnText_eq h, h.name]

theorem isWritable_eq : isWritable c ⟨c.rule.leaf, nullable, default⟩ =
    isWritable d ⟨d.rule.leaf, nullable, default⟩ := by
  rw [isWritable, isWritable, hasDefaults, hasDefaults, storage_eq h.leaf, conditions_eq h.leaf]

end

/-- What is written of a column, and what is reported, depends on the rule only through what
interchangeable columns have in common. -/
theorem defineColumn_eq {c d : Column} (h : c.Interchangeable d) :
    defineColumn c = defineColumn d := by
  rw [defineColumn, defineColumn, Rule.unwrap_eq, Rule.unwrap_eq, h.default, h.nullable]
  cases d.rule.source? with
  | none =>
    simp only [pure_bind, columnText_eq h, columnEvents_eq h, isWritable_eq h]
  | some s =>
    simp only [bind_assoc, pure_bind, columnText_eq h, columnEvents_eq h, isWritable_eq h]

theorem failureEvents_eq {c d : Column} (h : c.Interchangeable d) :
    failureEvents c = failureEvents d := by
  funext calls
  rw [failureEvents, failureEvents, Rule.unwrap_eq, Rule.unwrap_eq, h.default, h.nullable]
  cases d.rule.source? with
  | none => exact clauseEvents_eq h _ none
  | some s =>
    simp only [Run.bind_apply]
    generalize s.give calls = o
    obtain ⟨_ | v, later⟩ := o
    · rfl
    · exact clauseEvents_eq h _ (some v)

end Sql

namespace Table

theorem defineColumns_eq_of_interchangeable {cs ds : List Column}
    (h : List.Forall₂ Column.Interchangeable cs ds) (context : Context) :
    defineColumns context cs = defineColumns context ds := by
  induction h with
  | nil => rfl
  | cons hc _ ih =>
    funext calls
    rw [defineColumns, defineColumns, Sql.defineColumn_eq hc, Sql.failureEvents_eq hc, hc.name, ih]

theorem names_eq {cs ds : List Column} (h : List.Forall₂ Column.Interchangeable cs ds) :
    cs.map (·.name) = ds.map (·.name) := by
  induction h with
  | nil => rfl
  | cons hc _ ih => rw [List.map_cons, List.map_cons, hc.name, ih]

theorem defects_eq {t u : Table} (h : t.Interchangeable u) : t.defects = u.defects := by
  rw [defects, defects, columnNames, columnNames, names_eq h.columns, h.primaryKeys, h.indexes]

/-- What only rows are checked for never reaches a statement: interchangeable tables come out as
the same statements or the same error, with the same calls and reports on the way. -/
theorem generate_eq_of_interchangeable {t u : Table} (h : t.Interchangeable u)
    (settings : CompilerSettings) (context : Context) (calls : Calls) :
    t.generate settings context calls = u.generate settings context calls ∧
      t.generateIndexes settings context = u.generateIndexes settings context := by
  constructor
  · simp only [generate, defectRecords, defects_eq h, h.name, h.primaryKeys,
      defineColumns_eq_of_interchangeable h.columns]
  · simp only [generateIndexes, indexStatements, defectRecords, defects_eq h, h.name, h.indexes]

def wordy : Table where
  name := "readings"
  columns := [
    ⟨"level", .layer [⟨.even 0, "odd"⟩] .nullable (.layer [] (.default (.int 9) none)
      (.layer [] .optional (.layer [] (.default .null (some (.counter 1 3)))
        (.scalar [] (.number ⟨.int32, some (.int 0), none, some (.int 2), none⟩))))), true, none⟩,
    ⟨"mode", .union [] [.scalar [⟨.even 2, "no"⟩] (.literal [.text "a'b", .int 1]),
      .scalar [] (.literal [.null])], false, none⟩,
    ⟨"tags", .array [] (.object [] [("tag", .scalar [] (.string (.plain (some .url))))]), false,
      none⟩]
  primaryKeys := ["level"]
  indexes := [⟨"by_mode", ["mode"], true, some "level > 0"⟩]
  description := some "what was read"

def terse : Table where
  name := "readings"
  columns := [
    ⟨"level", .layer [] (.default (.int 5) (some (.counter 1 3))) (.layer [] .optional
      (.scalar [] (.number ⟨.safeint, some (.int 0), none, none, none⟩))), true, none⟩,
    ⟨"mode", .union [] [.scalar [] (.literal [.text "a'b", .int 1]),
      .scalar [] (.literal [.null])], false, none⟩,
    ⟨"tags", .array [] (.scalar [] .any), false, none⟩]
  primaryKeys := ["level"]
  indexes := [⟨"by_mode", ["mode"], true, some "level > 0"⟩]
  description := none

theorem generate_wordy :
    wordy.Interchangeable terse ∧
      wordy.generate ⟨true, "Row"⟩ .empty [1] = terse.generate ⟨true, "Row"⟩ .empty [1] ∧
      wordy.generateIndexes ⟨true, "Row"⟩ .empty = terse.generateIndexes ⟨true, "Row"⟩ .empty := by
  have hnumber : NumberFormat.int32.Interchangeable .safeint := .inr (.inl ⟨rfl, rfl⟩)
  have h : wordy.Interchangeable terse := by
    refine ⟨rfl, ?_, rfl, rfl⟩
    refine .cons ⟨rfl, rfl, rfl, rfl, rfl, .scalar (.number hnumber rfl rfl)⟩ ?_
    refine .cons ⟨rfl, rfl, rfl, rfl, rfl, .literals rfl rfl rfl⟩ ?_
    refine .cons ⟨rfl, rfl, rfl, rfl, rfl, .array [] [] _ _⟩ .nil
  exact ⟨h, generate_eq_of_interchangeable h ⟨true, "Row"⟩ .empty [1]⟩

end Table

end Tablewright
