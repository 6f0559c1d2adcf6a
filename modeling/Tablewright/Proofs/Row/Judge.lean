import Tablewright.Proofs.Rule.Run
import Tablewright.Row.Judge

namespace Tablewright.Row

theorem judge_nullable (s : Schema) (v : Value) :
    judge (.nullable s) v =
      if v.isNull then Pure.pure (.ok (.null, .exact)) else judge s v := by
  rw [judge]
  rfl

theorem judge_union (ss : List Schema) : judge (.union ss) = judgeOptions ss none [] := by
  rw [judge]

theorem judge_refined (s : Schema) (c : Refinement) (v : Value) :
    judge (.refined s c) v = (do
      let inner ← judge s v
      match inner with
      | .ok (a, f) => judgeCheck c a f
      | .error es => return .error es) :=
  congrFun (judge.eq_def (.refined s c)) v

theorem judge_list (s : Schema) (v : Value) :
    judge (.list s) v = match Coercion.toItems v with
      | none => Pure.pure (reject .notList)
      | some (xs, e) => do
        let items ← judgeItems (judge s) 0 xs
        return items.map fun (vs, f) => (.list vs, (Fit.ofExactness e).both f) :=
  congrFun (judge.eq_def (.list s)) v

theorem judge_object (name : String) (fs : List (Head × Schema)) (v : Value) :
    judge (.object name fs) v = match v with
      | .dict entries => do
        let columns ← judgeFields fs entries
        return ofObject (givenFields fs entries) columns
      | _ => Pure.pure (reject (.notModel name)) :=
  congrFun (judge.eq_def (.object name fs)) v

def Schema.isLeaf : Schema → Bool
  | .nullable _ | .union _ | .list _ | .object .. | .refined .. => false
  | _ => true

theorem judge_leaf {s : Schema} (h : s.isLeaf = true) (v : Value) :
    judge s v = Pure.pure (judgeLeaf s v) := by
  cases s with
  | nullable | union | list | object | refined => cases h
  | _ =>
    rw [judge]
    · rfl
    all_goals simp

theorem settle_eq_ok {wrap : α → Value} {against : α → Option Cause} {read : Coerced α}
    {w : Value} {fit : Fit} (h : settle wrap against read = .ok (w, fit)) :
    ∃ a e, read = .ok (a, e) ∧ against a = none ∧ w = wrap a ∧ fit = .ofExactness e := by
  unfold settle at h
  split at h
  · cases h
  · rename_i a e
    split at h
    · cases h
    · rename_i hagainst
      cases h
      exact ⟨a, e, rfl, hagainst, rfl, rfl⟩

theorem textSchema?_eq_some {l : TextLimits} {s : Schema} :
    textSchema? l = some s ↔ l.fit = true ∧ s = .text l := by
  rw [textSchema?]
  split
  · rename_i h
    exact ⟨fun hs => ⟨h, (Option.some.inj hs).symm⟩, fun hs => congrArg some hs.2.symm⟩
  · rename_i h
    exact ⟨fun hs => absurd hs (by simp), fun hs => absurd hs.1 h⟩

theorem stringSchema?_eq_some {r : StringRule} {s : Schema} (h : stringSchema? r = some s) :
    s = .date ∨ s = .datetime ∨ s = .duration ∨ s = .text (textLimits r) := by
  unfold stringSchema? at h
  split at h
  · exact .inl (Option.some.inj h).symm
  · exact .inr (.inl (Option.some.inj h).symm)
  · exact .inr (.inr (.inl (Option.some.inj h).symm))
  · exact .inr (.inr (.inr (textSchema?_eq_some.mp h).2))

theorem listedSchema?_eq_some {values : List Literal} {s : Schema} :
    listedSchema? values = some s ↔
      (∀ l ∈ values, l.toValue.isWritable = true) ∧ s = .listed (distinctLiterals [] values) := by
  rw [listedSchema?, ← List.all_eq_true]
  split
  · rename_i h
    exact ⟨fun hs => ⟨h, (Option.some.inj hs).symm⟩, fun hs => congrArg some hs.2.symm⟩
  · rename_i h
    exact ⟨fun hs => absurd hs (by simp), fun hs => absurd hs.1 h⟩

theorem listedSchema?_texts (values : List String) :
    listedSchema? (values.map .text) = some (.listed (distinctLiterals [] (values.map .text))) :=
  listedSchema?_eq_some.mpr ⟨by simp [Literal.toValue, Value.isWritable], rfl⟩

theorem isLeaf_scalarSchema? {scalar : Scalar} {s : Schema} (h : scalarSchema? scalar = some s) :
    s.isLeaf = true := by
  cases scalar with
  | string r => obtain rfl | rfl | rfl | rfl := stringSchema?_eq_some h <;> rfl
  | enum values | literal values =>
    obtain ⟨-, rfl⟩ := listedSchema?_eq_some.mp h
    rfl
  | number r =>
    rw [scalarSchema?, numberSchema?] at h
    split at h
    · obtain ⟨l, -, rfl⟩ := Option.map_eq_some_iff.mp h
      rfl
    · obtain ⟨l, -, rfl⟩ := Option.map_eq_some_iff.mp h
      rfl
  | _ =>
    cases h
    rfl

theorem judgeOptions_nil (best : Option (Value × Fit)) (issues : Issues) (v : Value) :
    judgeOptions [] best issues v = Pure.pure (concludeOptions best issues) := by
  rw [judgeOptions]
  rfl

theorem judgeOptions_cons (s : Schema) (ss : List Schema) (best : Option (Value × Fit))
    (issues : Issues) (v : Value) :
    judgeOptions (s :: ss) best issues v = (do
      let result ← judge s v
      match result with
      | .ok (a, f) =>
        if f.isDecisive then return .ok (a, f)
        else judgeOptions ss (keepBest best (a, f)) issues v
      | .error es => judgeOptions ss best (issues ++ es.underKey s.label) v) :=
  congrFun (judgeOptions.eq_def (s :: ss) best issues) v

theorem eq_of_keepBest {best : Option (Value × Fit)} {new b : Value × Fit}
    (h : keepBest best new = some b) : best = some b ∨ new = b := by
  unfold keepBest at h
  split at h
  · split at h
    · exact .inr (Option.some.inj h)
    · exact .inl h
  · exact .inr (Option.some.inj h)

theorem judge_of_judgeOptions {ss : List Schema} {best : Option (Value × Fit)} {issues : Issues}
    {v w : Value} {fit : Fit} {calls later : Calls}
    (h : judgeOptions ss best issues v calls = (.ok (.ok (w, fit)), later)) :
    best = some (w, fit) ∨
      ∃ s ∈ ss, ∃ before after, judge s v before = (.ok (.ok (w, fit)), after) := by
  induction ss generalizing best issues calls with
  | nil =>
    rw [judgeOptions_nil] at h
    cases best with
    | none => cases h
    | some b =>
      cases h
      exact .inl rfl
  | cons s ss ih =>
    have hs : (∃ t ∈ ss, ∃ before after, judge t v before = (.ok (.ok (w, fit)), after)) →
        ∃ t ∈ s :: ss, ∃ before after, judge t v before = (.ok (.ok (w, fit)), after) := by
      rintro ⟨t, ht, hj⟩
      exact ⟨t, List.mem_cons_of_mem s ht, hj⟩
    rw [judgeOptions_cons] at h
    obtain ⟨result, mid, hj, h⟩ := Run.bind_eq_ok.mp h
    cases result with
    | error es => exact (ih h).imp id hs
    | ok b =>
      obtain ⟨a, f⟩ := b
      dsimp only at h
      split at h
      · cases h
        exact .inr ⟨s, List.mem_cons_self, calls, later, hj⟩
      · obtain hb | hb := ih h
        · obtain hb | hb := eq_of_keepBest hb
          · exact .inl hb
          · cases hb
            exact .inr ⟨s, List.mem_cons_self, calls, mid, hj⟩
        · exact .inr (hs hb)

theorem judgeCheck_eq_ok {c : Refinement} {v w : Value} {f g : Fit} {calls later : Calls} :
    judgeCheck c v f calls = (.ok (.ok (w, g)), later) ↔
      c.condition.test v = .ok true ∧ (w, g) = (v, f) ∧
        later = c.condition.slot :: calls := by
  have hask : c.condition.ask v calls =
      (c.condition.test v, c.condition.slot :: calls) := rfl
  rw [judgeCheck, hask]
  constructor
  · intro h
    split at h <;> cases h
    rename_i ha
    injection ha with ha hcalls
    exact ⟨ha, rfl, hcalls.symm⟩
  · rintro ⟨ha, hw, rfl⟩
    cases hw
    rw [ha]

/-- A condition finds nothing wrong with a value, rejects it for one cause, or tells of it the
issues of a validation of its own. -/
theorem cases_of_judgeCheck {c : Refinement} {w : Value} {fit : Fit} {calls later : Calls}
    {r : Judgement} (h : judgeCheck c w fit calls = (.ok r, later)) :
    r = .ok (w, fit) ∨ (∃ cause, r = reject cause) ∨
      ∃ issues, c.condition.test w = .error (.invalid issues) ∧ r = .error issues := by
  rw [judgeCheck] at h
  split at h <;> cases h
  · exact .inl rfl
  · exact .inr (.inl ⟨_, rfl⟩)
  · exact .inr (.inl ⟨_, rfl⟩)
  · exact .inr (.inl ⟨_, rfl⟩)
  · rename_i issues ha
    exact .inr (.inr ⟨issues, congrArg Prod.fst ha, rfl⟩)

theorem findField_eq_some {n : FieldName} {entries : Entries} {key : String} {v : Value}
    (h : findField n entries = some (key, v)) :
    Value.field? entries key = some v ∧ (key = n.column ∨ key = n.field) := by
  rw [findField] at h
  split at h
  · rename_i w hw
    cases h
    exact ⟨hw, .inl rfl⟩
  · obtain ⟨w, hw, he⟩ := Option.map_eq_some_iff.mp h
    cases he
    exact ⟨hw, .inr rfl⟩

theorem field?_of_findField {n : FieldName} {entries : Entries}
    (h : findField n entries = none) : Value.field? entries n.column = none := by
  rw [findField] at h
  split at h
  · cases h
  · assumption

theorem judgeFields_nil (entries : Entries) :
    judgeFields [] entries = Pure.pure (.ok ([], .exact)) := by
  rw [judgeFields]
  rfl

theorem judgeFields_cons (h : Head) (s : Schema) (fs : List (Head × Schema)) (entries : Entries) :
    judgeFields ((h, s) :: fs) entries = (do
      let first ← judgeField (judge s) h entries
      let rest ← judgeFields fs entries
      return joinParts (fun v columns => (h.name.column, v) :: columns) first rest) := by
  rw [judgeFields]

def joinAll : List (String × Judgement) → Except Issues (List (String × Value) × Fit)
  | [] => .ok ([], .exact)
  | (n, first) :: rest => joinParts (fun v columns => (n, v) :: columns) first (joinAll rest)

theorem judgeFields_eq (fs : List (Head × Schema)) (entries : Entries) :
    judgeFields fs entries = (do
      let results ← fs.mapM fun f => judgeField (judge f.2) f.1 entries
      return joinAll ((fs.map (·.1.name.column)).zip results)) := by
  induction fs with
  | nil => rw [judgeFields_nil]; rfl
  | cons f fs ih =>
    obtain ⟨h, s⟩ := f
    rw [judgeFields_cons, ih, List.mapM_cons]
    simp only [bind_assoc, pure_bind, List.map_cons, List.zip_cons_cons, joinAll]

theorem mem_of_mem_distinct {seen ss : List Schema} {s : Schema}
    (h : s ∈ Schema.distinct seen ss) : s ∈ ss := by
  induction ss generalizing seen with
  | nil => cases h
  | cons t ts ih =>
    rw [Schema.distinct] at h
    split at h
    · exact List.mem_cons_of_mem t (ih h)
    · obtain rfl | h := List.mem_cons.mp h
      · exact List.mem_cons_self
      · exact List.mem_cons_of_mem t (ih h)

end Tablewright.Row
