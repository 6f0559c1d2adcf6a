import Tablewright.Proofs.Row.Null
import Tablewright.Proofs.Sql.Nullability
import Tablewright.Proofs.Table.Calls
import Tablewright.Proofs.Table.Default

namespace Tablewright

/-- How a column comes to be null in a row although none of its layers admits null: its leaf takes
the null that is given, or the row lacks it and its default is null, or it is an undefined one. -/
inductive Rule.NullIn (r : Rule) (n : Row.FieldName) (row : Entries) (calls : Calls) : Prop
  | given (key : String) (hg : Row.given row n.column n.field = some (key, .null))
      (ht : r.leaf.takesNull = true)
  | supplied (s : DefaultSource) (hl : Row.lacks n (.dict row) = true) (hs : r.source? = some s)
      (hv : (s.give calls).1 = .ok .null)
  | undefined (hl : Row.lacks n (.dict row) = true) (hs : r.source? = none)
      (hu : r.leaf.isUndefined = true)

namespace Row

theorem mayBeAbsent_of_admitsNull {r : Rule} (h : r.layers.any Rule.admitsNull = false) :
    mayBeAbsent r = r.leaf.isUndefined := by
  have hoptional : r.layers.any Layer.isOptional = false := by
    rw [List.any_eq_false] at h ⊢
    intro l hl ho
    refine h l hl ?_
    cases l with
    | optional => rfl
    | nullable | default => cases ho
  rw [mayBeAbsent_eq, hoptional, Bool.false_or]

theorem null_iff_of_judgeMissing {column : String} {r : Rule}
    (ha : r.layers.any Rule.admitsNull = false) {row : Entries} {n : FieldName}
    (hg : given row n.column n.field = none) {calls later : Calls} {v : Value}
    (h : judgeMissing column r calls = (.ok (.ok v), later)) :
    v = .null ↔ r.NullIn n row calls := by
  have hl := given_eq_none_iff.mp hg
  rw [judgeMissing] at h
  cases hsource : r.source? with
  | some s =>
    rw [hsource] at h
    obtain ⟨w, mid, hw, h⟩ := Run.bind_eq_ok.mp h
    cases h
    rw [← Value.isNull_iff, isNull_dumped, Value.isNull_iff]
    constructor
    · rintro rfl
      exact .supplied s hl hsource (by rw [hw])
    · rintro (⟨key, hkey, -⟩ | ⟨t, -, ht, hv⟩ | ⟨-, hnone, -⟩)
      · cases hg.symm.trans hkey
      · cases hsource.symm.trans ht
        rw [hw] at hv
        exact Except.ok.inj hv
      · cases hsource.symm.trans hnone
  | none =>
    rw [hsource, mayBeAbsent_of_admitsNull ha] at h
    cases hu : r.leaf.isUndefined with
    | false =>
      rw [hu] at h
      cases h
    | true =>
      rw [hu] at h
      cases h
      exact iff_of_true rfl (.undefined hl hsource hu)

/-- A column without layers that admit null is null in these ways and no others. -/
theorem null_iff_of_judgeColumn {p : Part} (hname : p.name.column = p.column) {name : String}
    (hs : schema? name p.rule = some p.schema) (ha : p.rule.layers.any Rule.admitsNull = false)
    {row : Entries} {calls later : Calls} {v : Value}
    (h : judgeColumn row p calls = (.ok (.ok v), later)) :
    v = .null ↔ p.rule.NullIn p.name row calls := by
  rw [judgeColumn, ← hname] at h
  cases hg : given row p.name.column p.name.field with
  | none =>
    rw [hg] at h
    exact null_iff_of_judgeMissing ha hg h
  | some found =>
    obtain ⟨key, w⟩ := found
    rw [hg] at h
    obtain ⟨j, mid, hj, h⟩ := Run.bind_eq_ok.mp h
    cases j with
    | error es => cases h
    | ok b =>
      cases h
      obtain ⟨hnull, htakes⟩ := null_of_judge hs hj
      have hgiven : lacks p.name (.dict row) ≠ true := by
        intro hl
        cases hg.symm.trans (given_eq_none_iff.mpr hl)
      rw [hnull]
      constructor
      · rintro rfl
        exact .given key hg (by rw [Rule.takesNull_leaf ha, htakes rfl])
      · rintro (⟨k, hk, -⟩ | ⟨-, hl, -, -⟩ | ⟨hl, -, -⟩)
        · cases hg.symm.trans hk
          rfl
        · exact absurd hl hgiven
        · exact absurd hl hgiven

end Row

namespace Table

open Log (Context Record)

def moods : Table where
  name := "moods"
  columns := [⟨"mood", .scalar [] (.literal [.text "calm", .null]), false, none⟩,
    ⟨"note", .layer [] (.default .null none) (.scalar [] (.string (.plain none))), false, none⟩]
  primaryKeys := []
  indexes := []
  description := none

theorem accepted_moods :
    ∃ compiled later records out after,
      moods.compile ⟨false, "Row"⟩ .empty [] = (.ok compiled, later, records) ∧
      compiled.validate (.dict [(.text "mood", .null)]) later = (.ok (.ok out), after) ∧
      ∀ c ∈ moods.columns, out.lookup c.name = some .null := by
  have hall : (accepted? ⟨false, "Row"⟩ .empty moods (.dict [(.text "mood", .null)])).any
      (fun out => moods.columns.all fun c => (out.lookup c.name).any (·.isNull)) = true := by
    decide +kernel
  obtain ⟨out, hout, hall⟩ := (Option.any_eq_true _ _).mp hall
  obtain ⟨compiled, later, records, after, hcompile, hvalidate⟩ := exists_of_accepted? hout
  refine ⟨compiled, later, records, out, after, hcompile, hvalidate, fun c hc => ?_⟩
  obtain ⟨v, hv, hnull⟩ := (Option.any_eq_true _ _).mp (List.all_eq_true.mp hall c hc)
  rw [hv, Value.isNull_iff.mp hnull]

theorem saysNotNull_moods : ∀ c ∈ moods.columns, ∃ text events,
    Sql.defineColumn c [] = (.ok (text, events), []) ∧ c.SaysNotNull text := by
  intro c hc
  simp only [moods, List.mem_cons, List.not_mem_nil, or_false] at hc
  obtain rfl | rfl := hc
  · exact ⟨_, _, rfl, by decide +kernel⟩
  · exact ⟨_, _, rfl, by decide +kernel⟩

end Table

end Tablewright
