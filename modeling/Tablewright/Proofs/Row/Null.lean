import Tablewright.Proofs.Row.Every
import Tablewright.Proofs.Row.TakesNull

namespace Tablewright.Row

theorem isNull_of_findListed {values : List Literal} {v : Value} {l : Literal}
    (h : findListed values v = some l) : l.toValue.isNull = v.isNull := by
  have hexact (he : isExactly v l = true) : l.toValue.isNull = v.isNull := by
    cases v <;> cases l <;> simp_all [isExactly, Value.isText, Literal.toValue, Value.isNull]
  have hsame (hd : denotesSame v l = true) : l.toValue.isNull = v.isNull := by
    cases v <;> cases l <;>
      simp_all [denotesSame, literalNumber?, Value.number?, Literal.toValue, Value.isNull]
  unfold findListed at h
  split at h
  · rename_i hf
    cases h
    exact hexact (List.find?_some hf)
  · dsimp only at h
    split at h
    · rename_i hf
      cases h
      exact hsame (List.find?_some hf)
    · exact hsame (List.find?_some h)

/-- A value is accepted as null when it is null, and then null is among the values. -/
def KeepsNull (s : Schema) (v w : Value) : Prop :=
  w.isNull = v.isNull ∧ (v.isNull = true → s.takesNull = true)

theorem keepsNull_of_isNull {s : Schema} {v w : Value} (hv : v.isNull = false)
    (hw : w.isNull = false) : KeepsNull s v w :=
  ⟨hw.trans hv.symm, fun h => by rw [hv] at h; cases h⟩

theorem keepsNull_of_settle {s : Schema} {wrap : α → Value} {against : α → Option Cause}
    {a : Coerced α} {v w : Value} {fit : Fit} (hwrap : ∀ x, (wrap x).isNull = false)
    (hnull : v.isNull = true → ∃ c, a = .error c) (h : settle wrap against a = .ok (w, fit)) :
    KeepsNull s v w := by
  have hv : v.isNull = false := by
    cases hv : v.isNull with
    | false => rfl
    | true =>
      obtain ⟨c, rfl⟩ := hnull hv
      cases h
  obtain ⟨x, -, -, -, rfl, -⟩ := settle_eq_ok h
  exact keepsNull_of_isNull hv (hwrap x)

theorem keepsNull_of_judgeLeaf {s : Schema} (hs : s.isLeaf = true) {v w : Value} {fit : Fit}
    (h : judgeLeaf s v = .ok (w, fit)) : KeepsNull s v w := by
  cases s with
  | null =>
    rw [judgeLeaf] at h
    split at h
    · rename_i hv
      cases h
      exact ⟨hv.symm, fun _ => rfl⟩
    · cases h
  | any =>
    cases h
    exact ⟨rfl, fun _ => rfl⟩
  | listed values =>
    rw [judgeLeaf, judgeListed] at h
    split at h
    · rename_i l hl
      cases h
      refine ⟨isNull_of_findListed hl, fun hv => ?_⟩
      have hnull : l = .null := by
        rw [← isNull_of_findListed hl] at hv
        cases l <;> first | rfl | cases hv
      exact decide_eq_true (hnull ▸ mem_of_findListed hl)
    · cases h
  | nullable | union | list | object | refined => cases hs
  | _ =>
    rw [judgeLeaf] at h
    refine keepsNull_of_settle (fun _ => rfl) (fun hv => ?_) h
    cases Value.isNull_iff.mp hv
    exact ⟨_, rfl⟩

mutual

theorem keepsNull_of_judge : ∀ (s : Schema) {v w : Value} {fit : Fit} {calls later : Calls},
    judge s v calls = (.ok (.ok (w, fit)), later) → KeepsNull s v w
  | .nullable s, v, w, fit, calls, later, h => by
    rw [judge_nullable] at h
    refine ⟨?_, fun _ => rfl⟩
    split at h
    · rename_i hv
      cases h
      exact hv.symm
    · exact (keepsNull_of_judge s h).1
  | .union ss, v, w, fit, calls, later, h => by
    rw [judge_union] at h
    obtain hnone | ⟨s, hs, before, after, hj⟩ := judge_of_judgeOptions h
    · cases hnone
    · obtain ⟨hw, ht⟩ := keepsNull_of_judgeOption ss s hs hj
      refine ⟨hw, fun hv => ?_⟩
      rw [Schema.takesNull, anyTakesNull_eq]
      exact List.any_eq_true.mpr ⟨s, hs, ht hv⟩
  | .list s, v, w, fit, calls, later, h => by
    rw [judge_list] at h
    split at h
    · cases h
    · rename_i xs e hitems
      have hv : v.isNull = false := by
        cases v with
        | null => cases hitems
        | _ => rfl
      obtain ⟨items, mid, -, h⟩ := Run.bind_eq_ok.mp h
      cases items with
      | error es => cases h
      | ok p =>
        cases h
        exact keepsNull_of_isNull hv rfl
  | .object name fs, v, w, fit, calls, later, h => by
    rw [judge_object] at h
    split at h
    · obtain ⟨columns, mid, -, h⟩ := Run.bind_eq_ok.mp h
      cases columns with
      | error es => cases h
      | ok p =>
        cases h
        exact keepsNull_of_isNull rfl rfl
    · cases h
  | .refined s c, v, w, fit, calls, later, h => by
    rw [judge_refined] at h
    obtain ⟨inner, mid, hj, h⟩ := Run.bind_eq_ok.mp h
    cases inner with
    | error es => cases h
    | ok a =>
      obtain ⟨x, f⟩ := a
      obtain ⟨-, hw, -⟩ := judgeCheck_eq_ok.mp h
      cases hw
      exact keepsNull_of_judge s hj
  | .text _, _, _, _, _, _, h | .int _, _, _, _, _, _, h | .float _, _, _, _, _, _, h
  | .bool, _, _, _, _, _, h | .bytes, _, _, _, _, _, h | .date, _, _, _, _, _, h
  | .datetime, _, _, _, _, _, h | .duration, _, _, _, _, _, h | .null, _, _, _, _, _, h
  | .any, _, _, _, _, _, h | .listed _, _, _, _, _, _, h => by
    rw [judge_leaf rfl] at h
    exact keepsNull_of_judgeLeaf rfl (Except.ok.inj (Prod.mk.inj h).1)

theorem keepsNull_of_judgeOption : ∀ (ss : List Schema), ∀ s ∈ ss, ∀ {v w : Value} {fit : Fit}
    {calls later : Calls}, judge s v calls = (.ok (.ok (w, fit)), later) → KeepsNull s v w
  | [], s, hs, _, _, _, _, _, _ => absurd hs List.not_mem_nil
  | t :: ts, s, hs, v, w, fit, calls, later, h => by
    obtain hst | hs := List.mem_cons.mp hs
    · rw [hst] at h ⊢
      exact keepsNull_of_judge t h
    · exact keepsNull_of_judgeOption ts s hs h

end

theorem isNull_dumped (v : Value) : (dumped v).isNull = v.isNull := by
  cases v <;> simp [dumped, Value.isNull]

/-- What a rule makes of a value is null only if the value is, and then null is among the values of
the rule. -/
theorem null_of_judge {name : String} {r : Rule} {s : Schema} (hs : schema? name r = some s)
    {v w : Value} {fit : Fit} {calls later : Calls}
    (h : judge s v calls = (.ok (.ok (w, fit)), later)) :
    (dumped w = .null ↔ v = .null) ∧ (v = .null → r.takesNull = true) := by
  obtain ⟨hw, ht⟩ := keepsNull_of_judge s h
  rw [← Value.isNull_iff, isNull_dumped, hw, ← Value.isNull_iff]
  exact ⟨Iff.rfl, fun hv => (takesNull_schema? name r hs).mp (ht hv)⟩

theorem isSome_keepBest (best : Option (Value × Fit)) (new : Value × Fit) :
    (keepBest best new).isSome = true := by
  unfold keepBest
  split
  · split <;> rfl
  · rfl

end Tablewright.Row
