import Tablewright.Proofs.Rule.Layers
import Tablewright.Proofs.Row.Judge

namespace Tablewright.Row

theorem judge_orNull (s : Schema) {v : Value} (h : v.isNull = false) :
    judge s.orNull v = judge s v := by
  have hn (s : Schema) : judge (.nullable s) v = judge s v := by
    rw [judge_nullable, h]
    rfl
  cases s with
  | null | nullable => rfl
  | _ => exact hn _

theorem judge_orNull_null (s : Schema) {v : Value} (h : v.isNull = true) (calls : Calls) :
    judge s.orNull v calls = (.ok (.ok (.null, .exact)), calls) := by
  have hn (s : Schema) : judge (.nullable s) v calls = (.ok (.ok (.null, .exact)), calls) := by
    rw [judge_nullable, h]
    rfl
  cases s with
  | null =>
    rw [Schema.orNull, judge_leaf rfl, judgeLeaf, h]
    rfl
  | _ => exact hn _

/-- Only the layers that admit null show in what is accepted; a default counts when nothing is
given. -/
theorem schema?_layer (name : String) (checks : List Refinement) (l : Layer) (r : Rule) :
    schema? name (.layer checks l r) = (schema? name r).map fun s =>
      (if Rule.admitsNull l then s.orNull else s).refinedBy checks := by
  cases l <;> rw [schema?] <;> rfl

theorem schema?_withChecks (name : String) (r : Rule) :
    schema? name r = (schema? name (r.withChecks [])).map (·.refinedBy r.checks) := by
  cases r with
  | layer checks l r =>
    rw [Rule.withChecks, schema?_layer, schema?_layer, Option.map_map]
    rfl
  | _ =>
    rw [Rule.withChecks, schema?, schema?, Option.map_map]
    rfl

theorem exists_schema?_leaf {name : String} {r : Rule} {s : Schema} (h : schema? name r = some s) :
    ∃ t, schema? name r.leaf = some t := by
  induction r using Rule.layerInduction generalizing s with
  | layer checks l r ih =>
    rw [schema?_layer] at h
    obtain ⟨t, ht, -⟩ := Option.map_eq_some_iff.mp h
    exact ih ht
  | _ => exact ⟨s, h⟩

/-- Layers without refinements do not change what becomes of a value, except that null may be
accepted as it is. -/
theorem schema?_layers {name : String} {r : Rule} (h : r.everyCheck = []) {s : Schema}
    (hs : schema? name r.leaf = some s) :
    ∃ t, schema? name r = some t ∧
      (∀ v, v.isNull = false → judge t v = judge s v) ∧
      ∀ v calls w fit later, judge t v calls = (.ok (.ok (w, fit)), later) →
        w = .null ∨ judge s v calls = (.ok (.ok (w, fit)), later) := by
  induction r using Rule.layerInduction with
  | layer checks l r ih =>
    rw [Rule.everyCheck, List.append_eq_nil_iff] at h
    obtain ⟨rfl, hr⟩ := h
    obtain ⟨t, ht, hv, hw⟩ := ih hr hs
    have hnull : ∀ v calls w fit later, judge t.orNull v calls = (.ok (.ok (w, fit)), later) →
        w = .null ∨ judge s v calls = (.ok (.ok (w, fit)), later) := by
      intro v calls w fit later hj
      cases hn : v.isNull with
      | true =>
        rw [judge_orNull_null t hn calls] at hj
        cases hj
        exact .inl rfl
      | false =>
        rw [judge_orNull t hn] at hj
        exact hw v calls w fit later hj
    have hsome : ∀ v, v.isNull = false → judge t.orNull v = judge s v := by
      intro v hn
      rw [judge_orNull t hn, hv v hn]
    -- Only these two layers show in what is accepted; a default counts when nothing is given.
    cases l with
    | optional | nullable => exact ⟨t.orNull, by rw [schema?, ht]; rfl, hsome, hnull⟩
    | default => exact ⟨t, by rw [schema?, ht]; rfl, hv, hw⟩
  | _ => exact ⟨s, hs, fun _ _ => rfl, fun _ _ _ _ _ hj => .inr hj⟩

theorem schema?_scalar {name : String} {r : Rule} (h : r.everyCheck = [])
    {checks : List Refinement} {s : Scalar} (hl : r.leaf = .scalar checks s) :
    schema? name r.leaf = scalarSchema? s := by
  have hc := Rule.everyCheck_leaf h
  rw [hl, Rule.everyCheck] at hc
  rw [hl, hc, schema?]
  cases scalarSchema? s <;> rfl

theorem absence_eq (r : Rule) :
    absence r = match r.source? with
      | some (.factory f) => .factory f
      | some (.value v) => .value v
      | none => if mayBeAbsent r then .value .null else .refused := by
  rw [absence, Rule.source?_eq_stack]
  cases r.stack.default with
  | none => rfl
  | some d =>
    obtain ⟨v, f⟩ := d
    cases f <;> rfl

end Tablewright.Row
