import Mathlib.Data.List.Induction
import Tablewright.Proofs.Row.Complaints

namespace Tablewright

/-- A rule whose values must be given: it has no layers but nullable ones, around a leaf that is not
undefined. -/
def Rule.IsRequired (r : Rule) : Prop := (∀ l ∈ r.layers, l = .nullable) ∧ r.leaf.kind ≠ .undefined

namespace Row

theorem isRequired_iff (r : Rule) : r.IsRequired ↔ r.source? = none ∧ mayBeAbsent r = false := by
  induction r using Rule.layerInduction with
  | layer checks l r ih =>
    have hlayer : (Rule.layer checks l r).IsRequired ↔ l = .nullable ∧ r.IsRequired := by
      simp [Rule.IsRequired, Rule.layers, Rule.leaf, and_assoc]
    rw [hlayer, ih, Rule.source?_layer, Option.or_eq_none_iff]
    cases l <;> simp [mayBeAbsent, Layer.source?]
  | scalar checks x =>
    have hleaf : (Rule.scalar checks x).IsRequired ↔ x.kind ≠ .undefined := by
      simp [Rule.IsRequired, Rule.layers, Rule.leaf, Rule.kind]
    have hsource : (Rule.scalar checks x).source? = none := rfl
    rw [hleaf, hsource]
    cases x <;> simp [mayBeAbsent, Scalar.kind]
  | _ => simp [Rule.IsRequired, Rule.layers, Rule.leaf, Rule.kind, Rule.source?, mayBeAbsent]

theorem absence_eq_refused {r : Rule} : absence r = .refused ↔ r.IsRequired := by
  rw [isRequired_iff, absence_eq]
  cases r.source? with
  | some s => cases s <;> simp
  | none => cases mayBeAbsent r <;> simp

def IsField (shape : List (String × Rule)) (n : FieldName) (r : Rule) : Prop :=
  n ∈ fieldNames (shape.map (·.1)) ∧ (n.column, r) ∈ shape

theorem isField_iff {shape : List (String × Rule)} (hn : (shape.map (·.1)).Nodup) {name : String}
    {schemas : List Schema} (hs : schemasOf? name shape = some schemas) {n : FieldName} {r : Rule} :
    IsField shape n r ↔ ∃ p ∈ partsOf shape schemas, p.name = n ∧ p.rule = r := by
  have hl := length_of_schemasOf? hs
  constructor
  · rintro ⟨hmem, hc⟩
    obtain ⟨left, p, right, hsplit, hpc, hname, hpmem⟩ := exists_part hl hn hc
    obtain ⟨hcolumn, hrule⟩ := Prod.mk.inj hpc
    have hcolumns : ((fieldNames (shape.map (·.1))).map (·.column)).Nodup := by
      rw [map_column_fieldNames]
      exact hn
    refine ⟨p, by rw [hsplit]; simp, ?_, hrule⟩
    exact List.inj_on_of_nodup_map hcolumns hpmem hmem (hname.trans hcolumn)
  · rintro ⟨p, hp, rfl, rfl⟩
    obtain ⟨-, hnames, hparts⟩ := parts_spec (map_column_fieldNames (shape.map (·.1))) hl
    obtain ⟨hname, hc⟩ := hparts p hp
    refine ⟨?_, hname ▸ hc⟩
    rw [← hnames]
    exact List.mem_map_of_mem hp

/-- A rule as it meets a value: the name that an object of the rule takes, the rule, the value, and
what has been called before their turn comes. -/
structure Place where
  name : String
  rule : Rule
  value : Value
  calls : Calls

/-- The way from a place down to another one: the keys and the positions on it. Layers add nothing
to it, but they let nothing pass that they accept themselves. -/
inductive Reaches : Place → List Step → Place → Prop
  | here (p : Place) : Reaches p [] p
  | layer {name : String} {checks : List Refinement} {l : Layer} {r : Rule} {v : Value}
    {calls : Calls} {path : List Step} {q : Place}
    (hv : Rule.admitsNull l = true → v.isNull = false) (h : Reaches ⟨name, r, v, calls⟩ path q) :
    Reaches ⟨name, .layer checks l r, v, calls⟩ path q
  | item {name : String} {checks : List Refinement} {r : Rule} {s : Schema} {v x : Value}
    {left right : List Value} {e : Exactness} {calls mid : Calls} {js : List Judgement}
    {path : List Step} {q : Place} (hv : Coercion.toItems v = some (left ++ x :: right, e))
    (hs : schema? (name ++ "Item") r = some s) (hl : left.mapM (judge s) calls = (.ok js, mid))
    (h : Reaches ⟨name ++ "Item", r, x, mid⟩ path q) :
    Reaches ⟨name, .array checks r, v, calls⟩ (.index left.length :: path) q
  | field {name key : String} {checks : List Refinement} {shape : List (String × Rule)}
    {schemas : List Schema} {left right : List Part} {p : Part} {entries : Entries} {x : Value}
    {calls mid : Calls} {js : List Judgement} {path : List Step} {q : Place}
    (hs : schemasOf? name shape = some schemas) (hp : partsOf shape schemas = left ++ p :: right)
    (hl : left.mapM (fun p => judgeField (judge p.schema) p.toField.1 entries) calls =
      (.ok js, mid))
    (hx : findField p.name entries = some (key, x))
    (h : Reaches ⟨name ++ pascal p.column, p.rule, x, mid⟩ path q) :
    Reaches ⟨name, .object checks shape, .dict entries, calls⟩ (.key key :: path) q

/-- A value that is accepted up to one of the refinements of its rule, which has these issues with
it. -/
def Refused (p : Place) (es : Issues) : Prop :=
  ∃ before c after s w fit mid later, p.rule.checks = before ++ c :: after ∧
    schema? p.name (p.rule.withChecks before) = some s ∧
    judge s p.value p.calls = (.ok (.ok (w, fit)), mid) ∧
    judgeCheck c w fit mid = (.ok (.error es), later)

/-- What is wrong with a value itself, whatever may be wrong with its parts: a leaf that its rule
does not accept, a container of another kind, an object that lacks a required field, or a value
that a refinement refuses. -/
inductive Wrong : Place → Issue → Prop
  | leaf {name : String} {checks : List Refinement} {scalar : Scalar} {s : Schema} {v : Value}
    {calls : Calls} {cause : Cause} (hs : scalarSchema? scalar = some s)
    (h : judgeLeaf s v = reject cause) : Wrong ⟨name, .scalar checks scalar, v, calls⟩ (.here cause)
  | array {name : String} {checks : List Refinement} {r : Rule} {v : Value} {calls : Calls}
    (h : Coercion.toItems v = none) : Wrong ⟨name, .array checks r, v, calls⟩ (.here .notList)
  | object {name : String} {checks : List Refinement} {shape : List (String × Rule)} {v : Value}
    {calls : Calls} (h : ∀ entries, v ≠ .dict entries) :
    Wrong ⟨name, .object checks shape, v, calls⟩ (.here (.notModel name))
  | missing {name : String} {checks : List Refinement} {shape : List (String × Rule)}
    {n : FieldName} {r : Rule} {entries : Entries} {calls : Calls} (hn : IsField shape n r)
    (hr : r.IsRequired) (hx : findField n entries = none) :
    Wrong ⟨name, .object checks shape, .dict entries, calls⟩ ⟨.missing, [.key n.column]⟩
  | refused {p : Place} {es : Issues} {i : Issue} (h : Refused p es) (hi : i ∈ es) : Wrong p i

def Flaw (p : Place) (i : Issue) : Prop :=
  ∃ path q k, Reaches p path q ∧ Wrong q k ∧ i = ⟨k.cause, path ++ k.path⟩

theorem Wrong.flaw {p : Place} {i : Issue} (h : Wrong p i) : Flaw p i :=
  ⟨[], p, i, .here p, h, rfl⟩

section

variable {name : String} {checks : List Refinement} {v : Value} {calls : Calls} {i : Issue}

theorem flaw_layer {l : Layer} {r : Rule} :
    Flaw ⟨name, .layer checks l r, v, calls⟩ i ↔
      (∃ es, Refused ⟨name, .layer checks l r, v, calls⟩ es ∧ i ∈ es) ∨
      (Rule.admitsNull l = true → v.isNull = false) ∧ Flaw ⟨name, r, v, calls⟩ i := by
  constructor
  · rintro ⟨path, q, k, hr, hw, rfl⟩
    cases hr with
    | here =>
      cases hw with
      | refused h hi => exact .inl ⟨_, h, hi⟩
    | layer hv hr => exact .inr ⟨hv, path, q, k, hr, hw, rfl⟩
  · rintro (⟨es, h, hi⟩ | ⟨hv, path, q, k, hr, hw, rfl⟩)
    · exact (Wrong.refused h hi).flaw
    · exact ⟨path, q, k, .layer hv hr, hw, rfl⟩

theorem flaw_scalar {scalar : Scalar} {s : Schema} (hs : scalarSchema? scalar = some s) :
    Flaw ⟨name, .scalar checks scalar, v, calls⟩ i ↔
      (∃ es, Refused ⟨name, .scalar checks scalar, v, calls⟩ es ∧ i ∈ es) ∨
      ∃ cause, judgeLeaf s v = reject cause ∧ i = .here cause := by
  constructor
  · rintro ⟨path, q, k, hr, hw, rfl⟩
    cases hr with
    | here =>
      cases hw with
      | refused h hi => exact .inl ⟨_, h, hi⟩
      | leaf ht h =>
        cases hs.symm.trans ht
        exact .inr ⟨_, h, rfl⟩
  · rintro (⟨es, h, hi⟩ | ⟨cause, h, rfl⟩)
    · exact (Wrong.refused h hi).flaw
    · exact (Wrong.leaf hs h).flaw

theorem flaw_array {r : Rule} {s : Schema} (hs : schema? (name ++ "Item") r = some s) :
    Flaw ⟨name, .array checks r, v, calls⟩ i ↔
      (∃ es, Refused ⟨name, .array checks r, v, calls⟩ es ∧ i ∈ es) ∨
      (Coercion.toItems v = none ∧ i = .here .notList) ∨
      ∃ left x right e js mid k, Coercion.toItems v = some (left ++ x :: right, e) ∧
        left.mapM (judge s) calls = (.ok js, mid) ∧ Flaw ⟨name ++ "Item", r, x, mid⟩ k ∧
        i = k.under (.index left.length) := by
  constructor
  · rintro ⟨path, q, k, hr, hw, rfl⟩
    cases hr with
    | here =>
      cases hw with
      | refused h hi => exact .inl ⟨_, h, hi⟩
      | array h => exact .inr (.inl ⟨h, rfl⟩)
    | item hv ht hl hr =>
      cases hs.symm.trans ht
      exact .inr (.inr ⟨_, _, _, _, _, _, _, hv, hl, ⟨_, q, k, hr, hw, rfl⟩, rfl⟩)
  · rintro (⟨es, h, hi⟩ | ⟨h, rfl⟩ | ⟨left, x, right, e, js, mid, _, hv, hl,
      ⟨path, q, k, hr, hw, rfl⟩, rfl⟩)
    · exact (Wrong.refused h hi).flaw
    · exact (Wrong.array h).flaw
    · exact ⟨_, q, k, .item hv hs hl hr, hw, rfl⟩

theorem flaw_object {shape : List (String × Rule)} {schemas : List Schema} {entries : Entries}
    (hs : schemasOf? name shape = some schemas) :
    Flaw ⟨name, .object checks shape, .dict entries, calls⟩ i ↔
      (∃ es, Refused ⟨name, .object checks shape, .dict entries, calls⟩ es ∧
        i ∈ es) ∨
      (∃ n r, IsField shape n r ∧ r.IsRequired ∧ findField n entries = none ∧
        i = ⟨.missing, [.key n.column]⟩) ∨
      ∃ left p right key x js mid k, partsOf shape schemas = left ++ p :: right ∧
        left.mapM (fun p => judgeField (judge p.schema) p.toField.1 entries) calls =
          (.ok js, mid) ∧
        findField p.name entries = some (key, x) ∧
        Flaw ⟨name ++ pascal p.column, p.rule, x, mid⟩ k ∧ i = k.under (.key key) := by
  constructor
  · rintro ⟨path, q, k, hr, hw, rfl⟩
    cases hr with
    | here =>
      cases hw with
      | refused h hi => exact .inl ⟨_, h, hi⟩
      | object h => exact absurd rfl (h entries)
      | missing hn hr hx => exact .inr (.inl ⟨_, _, hn, hr, hx, rfl⟩)
    | field ht hp hl hx hr =>
      cases hs.symm.trans ht
      exact .inr (.inr ⟨_, _, _, _, _, _, _, _, hp, hl, hx, ⟨_, q, k, hr, hw, rfl⟩, rfl⟩)
  · rintro (⟨es, h, hi⟩ | ⟨n, r, hn, hr, hx, rfl⟩ | ⟨left, p, right, key, x, js, mid, _, hp, hl,
      hx, ⟨path, q, k, hr, hw, rfl⟩, rfl⟩)
    · exact (Wrong.refused h hi).flaw
    · exact (Wrong.missing hn hr hx).flaw
    · exact ⟨_, q, k, .field hs hp hl hx hr, hw, rfl⟩

theorem flaw_noObject {shape : List (String × Rule)} (hv : ∀ entries, v ≠ .dict entries) :
    Flaw ⟨name, .object checks shape, v, calls⟩ i ↔
      (∃ es, Refused ⟨name, .object checks shape, v, calls⟩ es ∧ i ∈ es) ∨
      i = .here (.notModel name) := by
  constructor
  · rintro ⟨path, q, k, hr, hw, rfl⟩
    cases hr with
    | here =>
      cases hw with
      | refused h hi => exact .inl ⟨_, h, hi⟩
      | object => exact .inr rfl
      | missing => exact absurd rfl (hv _)
    | field => exact absurd rfl (hv _)
  · rintro (⟨es, h, hi⟩ | rfl)
    · exact (Wrong.refused h hi).flaw
    · exact (Wrong.object hv).flaw

end

def Declines (core : Schema) (checks : List Refinement) (v : Value) (calls : Calls)
    (es : Issues) : Prop :=
  ∃ before c after w fit mid later, checks = before ++ c :: after ∧
    judge (core.refinedBy before) v calls = (.ok (.ok (w, fit)), mid) ∧
    judgeCheck c w fit mid = (.ok (.error es), later)

theorem declines_append {core : Schema} {checks : List Refinement} {c : Refinement} {v : Value}
    {calls : Calls} {es : Issues} : Declines core (checks ++ [c]) v calls es ↔
      Declines core checks v calls es ∨ ∃ w fit mid later,
        judge (core.refinedBy checks) v calls = (.ok (.ok (w, fit)), mid) ∧
        judgeCheck c w fit mid = (.ok (.error es), later) := by
  constructor
  · rintro ⟨before, d, after, w, fit, mid, later, hsplit, hj, hd⟩
    obtain rfl | ⟨rest, last, rfl⟩ := List.eq_nil_or_concat after
    · obtain ⟨rfl, hc⟩ := List.append_inj' hsplit rfl
      cases hc
      exact .inr ⟨w, fit, mid, later, hj, hd⟩
    · rw [List.concat_eq_append, ← List.cons_append, ← List.append_assoc] at hsplit
      obtain ⟨rfl, -⟩ := List.append_inj' hsplit rfl
      exact .inl ⟨before, d, rest, w, fit, mid, later, rfl, hj, hd⟩
  · rintro (⟨before, d, after, w, fit, mid, later, rfl, hj, hd⟩ | ⟨w, fit, mid, later, hj, hd⟩)
    · exact ⟨before, d, after ++ [c], w, fit, mid, later, by simp, hj, hd⟩
    · exact ⟨checks, c, [], w, fit, mid, later, rfl, hj, hd⟩

theorem mem_complaints_refinedBy {core : Schema} {checks : List Refinement} {v : Value}
    {calls later : Calls} {result : Judgement}
    (h : judge (core.refinedBy checks) v calls = (.ok result, later)) :
    ∃ first mid, judge core v calls = (.ok first, mid) ∧ ∀ i, i ∈ complaints result ↔
      (∃ es, Declines core checks v calls es ∧ i ∈ es) ∨ i ∈ complaints first := by
  induction checks using List.reverseRecOn generalizing result later with
  | nil =>
    refine ⟨result, later, h, fun i => (or_iff_right ?_).symm⟩
    rintro ⟨es, ⟨before, c, after, w, fit, mid, last, hsplit, -⟩, -⟩
    cases List.append_ne_nil_of_right_ne_nil before (List.cons_ne_nil c after) hsplit.symm
  | append_singleton cs c ih =>
    have hlast : core.refinedBy (cs ++ [c]) = .refined (core.refinedBy cs) c := by
      simp [Schema.refinedBy]
    rw [hlast, judge_refined] at h
    obtain ⟨inner, mid, hinner, h⟩ := Run.bind_eq_ok.mp h
    obtain ⟨first, start, hfirst, hmem⟩ := ih hinner
    refine ⟨first, start, hfirst, fun i => ?_⟩
    simp only [declines_append, or_and_right, exists_or]
    cases inner with
    | error es =>
      cases h
      rw [hmem, or_assoc, or_congr_right (or_iff_right ?_).symm]
      rintro ⟨es', ⟨w, fit, last, next, hj, -⟩, -⟩
      cases hinner.symm.trans hj
    | ok b =>
      obtain ⟨w, fit⟩ := b
      -- Nothing is wrong below, so the complaint can only be that of the last refinement.
      have hnone := (hmem i).not.mp List.not_mem_nil
      rw [not_or] at hnone
      rw [or_iff_left hnone.2, or_iff_right hnone.1]
      constructor
      · intro hi
        cases result with
        | ok b => cases hi
        | error es => exact ⟨es, ⟨w, fit, mid, later, hinner, h⟩, hi⟩
      · rintro ⟨es, ⟨w', fit', mid', next, hj, hc⟩, hi⟩
        cases hinner.symm.trans hj
        cases h.symm.trans hc
        exact hi

def Exact (name : String) (r : Rule) : Prop :=
  ∀ s, schema? name r = some s → ∀ v calls result later, judge s v calls = (.ok result, later) →
    ∀ i, i ∈ complaints result ↔ Flaw ⟨name, r, v, calls⟩ i

theorem mem_complaints_of_core {name : String} {r : Rule} {core : Schema}
    (hcore : ∀ cs, schema? name (r.withChecks cs) = some (core.refinedBy cs)) {v : Value}
    {calls later : Calls} {result : Judgement}
    (h : judge (core.refinedBy r.checks) v calls = (.ok result, later)) :
    ∃ first mid, judge core v calls = (.ok first, mid) ∧ ∀ i, i ∈ complaints result ↔
      (∃ es, Refused ⟨name, r, v, calls⟩ es ∧ i ∈ es) ∨ i ∈ complaints first := by
  have hrefused (es : Issues) :
      Declines core r.checks v calls es ↔ Refused ⟨name, r, v, calls⟩ es := by
    constructor
    · rintro ⟨before, c, after, w, fit, last, next, hsplit, hj, hc⟩
      exact ⟨before, c, after, _, w, fit, last, next, hsplit, hcore before, hj, hc⟩
    · rintro ⟨before, c, after, s, w, fit, last, next, hsplit, hs, hj, hc⟩
      cases (hcore before).symm.trans hs
      exact ⟨before, c, after, w, fit, last, next, hsplit, hj, hc⟩
  obtain ⟨first, mid, hfirst, hmem⟩ := mem_complaints_refinedBy h
  simp only [hrefused] at hmem
  exact ⟨first, mid, hfirst, hmem⟩

theorem exact_layer {name : String} {r : Rule} (hr : Exact name r) (checks : List Refinement)
    (l : Layer) : Exact name (.layer checks l r) := by
  intro s hs v calls result later h i
  rw [schema?_layer] at hs
  obtain ⟨t, ht, rfl⟩ := Option.map_eq_some_iff.mp hs
  have hcore (cs : List Refinement) : schema? name ((Rule.layer checks l r).withChecks cs) =
      some ((if Rule.admitsNull l then t.orNull else t).refinedBy cs) := by
    rw [Rule.withChecks, schema?_layer, ht]
    rfl
  obtain ⟨first, mid, hfirst, hmem⟩ := mem_complaints_of_core hcore h
  rw [hmem, flaw_layer]
  apply or_congr_right
  cases hl : Rule.admitsNull l with
  | false =>
    rw [hl] at hfirst
    rw [hr t ht v calls first mid hfirst]
    simp
  | true =>
    rw [hl, if_pos rfl] at hfirst
    cases hv : v.isNull with
    | true =>
      rw [judge_orNull_null t hv] at hfirst
      cases hfirst
      simp [complaints]
    | false =>
      rw [judge_orNull t hv] at hfirst
      rw [hr t ht v calls first mid hfirst]
      simp

theorem exact_scalar (name : String) (checks : List Refinement) (scalar : Scalar) :
    Exact name (.scalar checks scalar) := by
  intro s hs v calls result later h i
  rw [schema?] at hs
  obtain ⟨t, ht, rfl⟩ := Option.map_eq_some_iff.mp hs
  have hleaf := isLeaf_scalarSchema? ht
  have hcore (cs : List Refinement) :
      schema? name ((Rule.scalar checks scalar).withChecks cs) = some (t.refinedBy cs) := by
    rw [Rule.withChecks, schema?, ht]
    rfl
  obtain ⟨first, mid, hfirst, hmem⟩ := mem_complaints_of_core hcore h
  rw [judge_leaf hleaf] at hfirst
  cases hfirst
  rw [hmem, flaw_scalar ht]
  apply or_congr_right
  constructor
  · intro hi
    cases hj : judgeLeaf t v with
    | ok b =>
      rw [hj] at hi
      cases hi
    | error es =>
      obtain ⟨cause, rfl⟩ := exists_of_judgeLeaf hleaf hj
      rw [hj] at hi
      exact ⟨cause, rfl, List.mem_singleton.mp hi⟩
  · rintro ⟨cause, hj, rfl⟩
    rw [hj]
    exact List.mem_singleton_self _

/-- What is complained about in one of several judgements, each of which was passed after those
before it. -/
theorem exists_complaint_iff {f : α → Run Judgement} {P : α → Calls → Issue → Prop} {xs : List α}
    (hP : ∀ x ∈ xs, ∀ calls j later, f x calls = (.ok j, later) →
      ∀ k, k ∈ complaints j ↔ P x calls k)
    {calls later : Calls} {js : List Judgement} (h : xs.mapM f calls = (.ok js, later))
    (Q : Nat → Issue → Prop) :
    (∃ left j right, js = left ++ j :: right ∧ ∃ k ∈ complaints j, Q left.length k) ↔
      ∃ left x right before mid k, xs = left ++ x :: right ∧
        left.mapM f calls = (.ok before, mid) ∧ P x mid k ∧ Q left.length k := by
  constructor
  · rintro ⟨lefts, j, rights, rfl, k, hk, hq⟩
    obtain ⟨left, x, right, mid, next, rfl, hleft, hx, hlength⟩ := Run.exists_mapM_split h
    have hkx := (hP x (by simp) mid j next hx k).mp hk
    exact ⟨left, x, right, lefts, mid, k, rfl, hleft, hkx, hlength ▸ hq⟩
  · rintro ⟨left, x, right, lefts, mid, k, rfl, hleft, hk, hq⟩
    obtain ⟨before, start, j, next, rights, hbefore, hj, rfl, hlength⟩ := Run.mapM_split h
    cases hleft.symm.trans hbefore
    have hkj := (hP x (by simp) mid j next hj k).mpr hk
    exact ⟨lefts, j, rights, rfl, k, hkj, hlength ▸ hq⟩

theorem exact_array {name : String} {r : Rule} (hr : Exact (name ++ "Item") r)
    (checks : List Refinement) : Exact name (.array checks r) := by
  intro s hs v calls result later h i
  rw [schema?] at hs
  obtain ⟨t, ht, rfl⟩ := Option.map_eq_some_iff.mp hs
  have hcore (cs : List Refinement) :
      schema? name ((Rule.array checks r).withChecks cs) = some ((Schema.list t).refinedBy cs) := by
    rw [Rule.withChecks, schema?, ht]
    rfl
  obtain ⟨first, mid, hfirst, hmem⟩ := mem_complaints_of_core hcore h
  rw [hmem, flaw_array ht]
  apply or_congr_right
  cases hv : Coercion.toItems v with
  | none =>
    rw [judge_list, hv] at hfirst
    cases hfirst
    simp [complaints, reject]
  | some found =>
    obtain ⟨xs, e⟩ := found
    obtain ⟨js, hjs, hcomplaints, -⟩ := exists_items_of_judge hv hfirst
    have hitem := exists_complaint_iff (fun x _ => hr t ht x) hjs
      fun n k => i = k.under (.index (0 + n : Nat))
    rw [hcomplaints, mem_joinItems, hitem]
    constructor
    · rintro ⟨left, x, right, before, mid, k, rfl, hleft, hk, rfl⟩
      exact .inr ⟨left, x, right, e, before, mid, k, rfl, hleft, hk, by rw [Nat.zero_add]⟩
    · rintro (⟨⟨⟩, -⟩ | ⟨left, x, right, e', before, mid, k, hsplit, hleft, hk, rfl⟩)
      cases hsplit
      exact ⟨left, x, right, before, mid, k, rfl, hleft, hk, by rw [Nat.zero_add]⟩

/-- What can be wrong with a field: it lacks a value that it must have, or there is something wrong
with the value that is given for it. -/
def FieldFlaw (name : String) (entries : Entries) (p : Part) (calls : Calls) (i : Issue) : Prop :=
  (p.rule.IsRequired ∧ findField p.name entries = none ∧ i = ⟨.missing, [.key p.name.column]⟩) ∨
    ∃ key x k, findField p.name entries = some (key, x) ∧
      Flaw ⟨name ++ pascal p.column, p.rule, x, calls⟩ k ∧ i = k.under (.key key)

theorem mem_complaints_judgeField {name : String} {p : Part}
    (hr : Exact (name ++ pascal p.column) p.rule)
    (hs : schema? (name ++ pascal p.column) p.rule = some p.schema) {entries : Entries}
    {calls later : Calls} {j : Judgement}
    (h : judgeField (judge p.schema) p.toField.1 entries calls = (.ok j, later)) (i : Issue) :
    i ∈ complaints j ↔ FieldFlaw name entries p calls i := by
  rw [judgeField, Part.toField] at h
  rw [FieldFlaw]
  cases hx : findField p.name entries with
  | none =>
    rw [hx, judgeAbsent] at h
    rw [← absence_eq_refused]
    cases ha : absence p.rule with
    | refused =>
      rw [ha] at h
      cases h
      simp [complaints]
    | value w =>
      rw [ha] at h
      cases h
      simp [complaints]
    | factory f =>
      rw [ha] at h
      obtain ⟨w, mid, -, h⟩ := Run.bind_eq_ok.mp h
      cases h
      simp [complaints]
  | some found =>
    obtain ⟨key, x⟩ := found
    rw [hx] at h
    obtain ⟨result, mid, hj, h⟩ := Run.bind_eq_ok.mp h
    cases h
    have hmem := hr p.schema hs x calls result _ hj
    rw [complaints_under, complaints_countGiven, Issues.under, List.mem_map]
    constructor
    · rintro ⟨k, hk, rfl⟩
      exact .inr ⟨key, x, k, rfl, (hmem k).mp hk, rfl⟩
    · rintro (⟨-, ⟨⟩, -⟩ | ⟨_, _, k, ⟨⟩, hk, rfl⟩)
      exact ⟨k, (hmem k).mpr hk, rfl⟩

/-- The complaints about the columns of an object: those about what it lacks, and those about what
is given for each of them. -/
theorem mem_complaints_fields {name : String} {shape : List (String × Rule)}
    {schemas : List Schema} (hn : (shape.map (·.1)).Nodup)
    (hshape : ∀ c ∈ shape, Exact (name ++ pascal c.1) c.2)
    (hs : schemasOf? name shape = some schemas) {entries : Entries} {calls later : Calls}
    {j : Judgement}
    (h : judge (.object name ((partsOf shape schemas).map Part.toField)) (.dict entries) calls =
      (.ok j, later)) {i : Issue} :
    i ∈ complaints j ↔
      (∃ n r, IsField shape n r ∧ r.IsRequired ∧ findField n entries = none ∧
        i = ⟨.missing, [.key n.column]⟩) ∨
      ∃ left p right key x js mid k, partsOf shape schemas = left ++ p :: right ∧
        left.mapM (fun p => judgeField (judge p.schema) p.toField.1 entries) calls =
          (.ok js, mid) ∧
        findField p.name entries = some (key, x) ∧
        Flaw ⟨name ++ pascal p.column, p.rule, x, mid⟩ k ∧ i = k.under (.key key) := by
  obtain ⟨-, -, hparts⟩ := parts_spec (map_column_fieldNames (shape.map (·.1)))
    (length_of_schemasOf? hs)
  obtain ⟨js, hjs, hcomplaints, -⟩ := exists_fields_of_judge h
  have hlength : js.length = (((partsOf shape schemas).map Part.toField).map
      (·.1.name.column)).length := by
    rw [List.length_map, List.length_map, Run.length_of_mapM hjs, List.length_map]
  rw [List.mapM_map] at hjs
  have hfield (p : Part) (hp : p ∈ partsOf shape schemas) (calls : Calls) (j : Judgement)
      (later : Calls)
      (h : judgeField (judge p.schema) p.toField.1 entries calls = (.ok j, later)) (k : Issue) :
      k ∈ complaints j ↔ FieldFlaw name entries p calls k :=
    mem_complaints_judgeField (hshape (p.column, p.rule) (hparts p hp).2)
      (schema?_of_mem_parts hs hp) h k
  have hsplit := exists_complaint_iff hfield hjs fun _ k => i = k
  simp only [exists_eq_right'] at hsplit
  rw [hcomplaints, mem_joinAll hlength, hsplit]
  constructor
  · rintro ⟨left, p, right, before, mid, _, hp, hleft, hflaw, rfl⟩
    obtain ⟨hr, hx, rfl⟩ | ⟨key, x, k, hx, hk, rfl⟩ := hflaw
    · have hmem : p ∈ partsOf shape schemas := by
        rw [hp]
        simp
      exact .inl ⟨p.name, p.rule, (isField_iff hn hs).mpr ⟨p, hmem, rfl, rfl⟩, hr, hx, rfl⟩
    · exact .inr ⟨left, p, right, key, x, before, mid, k, hp, hleft, hx, hk, rfl⟩
  · rintro (⟨n, r, hfield, hr, hx, rfl⟩ | ⟨left, p, right, key, x, before, mid, k, hp, hleft, hx,
      hk, rfl⟩)
    · obtain ⟨p, hp, rfl, rfl⟩ := (isField_iff hn hs).mp hfield
      obtain ⟨left, right, hp⟩ := List.append_of_mem hp
      rw [hp] at hjs
      obtain ⟨before, mid, j, after, rights, hleft, -⟩ := Run.mapM_split hjs
      exact ⟨left, p, right, before, mid, _, hp, hleft, .inl ⟨hr, hx, rfl⟩, rfl⟩
    · exact ⟨left, p, right, before, mid, _, hp, hleft, .inr ⟨key, x, k, hx, hk, rfl⟩, rfl⟩

theorem exact_object {name : String} {shape : List (String × Rule)}
    (hn : (shape.map (·.1)).Nodup) (hshape : ∀ c ∈ shape, Exact (name ++ pascal c.1) c.2)
    (checks : List Refinement) :
    Exact name (.object checks shape) := by
  intro s hs v calls result later h i
  rw [schema?] at hs
  obtain ⟨fs, hfs, rfl⟩ := Option.map_eq_some_iff.mp hs
  have hcore (cs : List Refinement) : schema? name ((Rule.object checks shape).withChecks cs) =
      some ((Schema.object name fs).refinedBy cs) := by
    rw [Rule.withChecks, schema?, hfs]
    rfl
  obtain ⟨first, mid, hfirst, hmem⟩ := mem_complaints_of_core hcore h
  obtain ⟨schemas, hschemas, -, rfl⟩ := fields?_eq length_fieldNames.symm hfs
  rw [hmem]
  cases v with
  | dict entries =>
    rw [mem_complaints_fields hn hshape hschemas hfirst, flaw_object hschemas]
  | _ =>
    rw [judge_object] at hfirst
    cases hfirst
    rw [flaw_noObject (by rintro entries ⟨⟩)]
    apply or_congr_right
    exact List.mem_singleton

mutual

/-- Without unions, the complaints about a value are exactly the flaws below it. -/
theorem exact_of_plain : ∀ (name : String) (r : Rule), r.Plain → Exact name r
  | name, .layer checks l r, hr => exact_layer (exact_of_plain name r hr) checks l
  | name, .scalar checks scalar, _ => exact_scalar name checks scalar
  | _, .union .., hr => hr.elim
  | name, .array checks r, hr => exact_array (exact_of_plain (name ++ "Item") r hr) checks
  | name, .object checks shape, hr =>
    exact_object hr.1 (exact_of_plainIn name shape hr.2) checks

theorem exact_of_plainIn : ∀ (name : String) (shape : List (String × Rule)), PlainIn shape →
    ∀ c ∈ shape, Exact (name ++ pascal c.1) c.2
  | name, [], _ => by rintro c ⟨⟩
  | name, (column, r) :: shape, hr => by
    rw [List.forall_mem_cons]
    exact ⟨exact_of_plain (name ++ pascal column) r hr.1, exact_of_plainIn name shape hr.2⟩

end

/-- The way from a rule and a value down to a part of each, as far as both go together. -/
inductive Leads : Rule → Value → List Step → Rule → Value → Prop
  | here (r : Rule) (v : Value) : Leads r v [] r v
  | layer {checks : List Refinement} {l : Layer} {r t : Rule} {v w : Value} {path : List Step}
    (hv : Rule.admitsNull l = true → v.isNull = false) (h : Leads r v path t w) :
    Leads (.layer checks l r) v path t w
  | item {checks : List Refinement} {r t : Rule} {v x w : Value} {xs : List Value} {e : Exactness}
    {k : Nat} {path : List Step} (hv : Coercion.toItems v = some (xs, e)) (hx : xs[k]? = some x)
    (h : Leads r x path t w) : Leads (.array checks r) v (.index k :: path) t w
  | field {checks : List Refinement} {shape : List (String × Rule)} {n : FieldName} {r t : Rule}
    {entries : Entries} {key : String} {x w : Value} {path : List Step} (hn : IsField shape n r)
    (hx : findField n entries = some (key, x)) (h : Leads r x path t w) :
    Leads (.object checks shape) (.dict entries) (.key key :: path) t w

/-- Judging a value that has a result comes by every place to which the rule and the value lead. -/
theorem exists_reaches {name : String} {r t : Rule} {s : Schema} {v w : Value}
    {calls later : Calls} {result : Judgement} {path : List Step} (hr : r.Plain)
    (hs : schema? name r = some s) (hj : judge s v calls = (.ok result, later))
    (h : Leads r v path t w) :
    ∃ q, Reaches ⟨name, r, v, calls⟩ path q ∧ q.rule = t ∧ q.value = w := by
  induction h generalizing name s calls result later with
  | here r v => exact ⟨_, .here _, rfl, rfl⟩
  | @layer _ l _ _ v _ _ hv h ih =>
    rw [schema?_layer] at hs
    obtain ⟨u, hu, rfl⟩ := Option.map_eq_some_iff.mp hs
    obtain ⟨first, mid, hfirst, -⟩ := mem_complaints_refinedBy hj
    have hinner : judge u v calls = (.ok first, mid) := by
      cases hl : Rule.admitsNull l with
      | false =>
        rw [hl] at hfirst
        exact hfirst
      | true =>
        rw [hl, if_pos rfl, judge_orNull u (hv hl)] at hfirst
        exact hfirst
    obtain ⟨q, hq, ht, hw⟩ := ih hr hu hinner
    exact ⟨q, .layer hv hq, ht, hw⟩
  | @item _ _ _ v x _ xs _ k _ hv hx h ih =>
    rw [schema?] at hs
    obtain ⟨u, hu, rfl⟩ := Option.map_eq_some_iff.mp hs
    obtain ⟨first, mid, hfirst, -⟩ := mem_complaints_refinedBy hj
    obtain ⟨js, hjs, -, -⟩ := exists_items_of_judge hv hfirst
    obtain ⟨hlt, hget⟩ := List.getElem?_eq_some_iff.mp hx
    have hsplit : xs = xs.take k ++ x :: xs.drop (k + 1) := by
      rw [← hget, List.getElem_cons_drop, List.take_append_drop]
    have hlength : (xs.take k).length = k := by
      rw [List.length_take]
      omega
    rw [hsplit] at hjs
    obtain ⟨lefts, before, j, after, rights, hleft, hjx, -⟩ := Run.mapM_split hjs
    obtain ⟨q, hq, ht, hw⟩ := ih hr hu hjx
    refine ⟨q, ?_, ht, hw⟩
    rw [← hlength]
    exact .item (hsplit ▸ hv) hu hleft hq
  | @field _ _ _ _ _ entries _ _ _ _ hn hx h ih =>
    rw [schema?] at hs
    obtain ⟨fs, hfs, rfl⟩ := Option.map_eq_some_iff.mp hs
    obtain ⟨schemas, hschemas, -, rfl⟩ := fields?_eq length_fieldNames.symm hfs
    obtain ⟨first, mid, hfirst, -⟩ := mem_complaints_refinedBy hj
    obtain ⟨js, hjs, -, -⟩ := exists_fields_of_judge hfirst
    obtain ⟨p, hp, rfl, rfl⟩ := (isField_iff hr.1 hschemas).mp hn
    obtain ⟨left, right, hsplit⟩ := List.append_of_mem hp
    rw [← partsOf, List.mapM_map, hsplit] at hjs
    obtain ⟨lefts, before, j, after, rights, hleft, hjp, -⟩ := Run.mapM_split hjs
    have hfield : judgeField (judge p.schema) p.toField.1 entries before = (.ok j, after) := hjp
    rw [judgeField, Part.toField, hx] at hfield
    obtain ⟨found, last, hfound, -⟩ := Run.bind_eq_ok.mp hfield
    have hplain : p.rule.Plain := plainIn_iff.mp hr.2 _ hn.2
    obtain ⟨q, hq, ht, hw⟩ := ih hplain (schema?_of_mem_parts hschemas hp) hfound
    exact ⟨q, .field hschemas hsplit hleft hx hq, ht, hw⟩

/-- Every place on the way of judging is one to which the rule and the value lead. -/
theorem leads_of_reaches {p q : Place} {path : List Step} (hr : p.rule.Plain)
    (h : Reaches p path q) : Leads p.rule p.value path q.rule q.value := by
  induction h with
  | here p => exact .here p.rule p.value
  | layer hv h ih => exact .layer hv (ih hr)
  | item hv hs hl h ih => exact .item hv (by simp) (ih hr)
  | @field _ _ _ shape schemas left right p _ _ _ _ _ _ _ hs hp hl hx h ih =>
    have hmem : p ∈ partsOf shape schemas := by
      rw [hp]
      simp
    have hn : IsField shape p.name p.rule := (isField_iff hr.1 hs).mpr ⟨p, hmem, rfl, rfl⟩
    exact .field hn hx (ih (plainIn_iff.mp hr.2 _ hn.2))

end Row

namespace Value

/-- The part of a value to which one step leads: a key of a dictionary, or a position in a list or
in a tuple. -/
def part? : Step → Value → Option Value
  | .key name, .dict entries => field? entries name
  | .index (.ofNat k), .list xs | .index (.ofNat k), .tuple xs => xs[k]?
  | _, _ => none

def follow? (v : Value) (path : List Step) : Option Value :=
  path.foldlM (fun v step => part? step v) v

theorem follow?_cons (v : Value) (step : Step) (path : List Step) :
    v.follow? (step :: path) = (part? step v).bind (·.follow? path) := rfl

/-- A path leads to a part of a value, unless it comes to a set on the way, which has no positions:
there the next step only counts the elements in their order. -/
def LeadsTo (v : Value) (path : List Step) (w : Value) : Prop :=
  v.follow? path = some w ∨
    ∃ before k after xs, path = before ++ .index k :: after ∧ v.follow? before = some (.set xs)

theorem LeadsTo.cons {v u w : Value} {step : Step} {path : List Step} (hs : part? step v = some u)
    (h : u.LeadsTo path w) : v.LeadsTo (step :: path) w := by
  have hstep (rest : List Step) : v.follow? (step :: rest) = u.follow? rest := by
    rw [follow?_cons, hs]
    rfl
  obtain h | ⟨before, k, after, xs, rfl, h⟩ := h
  · exact .inl ((hstep path).trans h)
  · exact .inr ⟨step :: before, k, after, xs, rfl, (hstep before).trans h⟩

theorem LeadsTo.item {v x w : Value} {left right : List Value} {e : Exactness} {path : List Step}
    (h : Coercion.toItems v = some (left ++ x :: right, e)) (hx : x.LeadsTo path w) :
    v.LeadsTo (.index left.length :: path) w := by
  have hget : (left ++ x :: right)[left.length]? = some x := by simp
  cases v with
  | list xs | tuple xs =>
    cases h
    exact hx.cons hget
  | set xs => exact .inr ⟨[], _, path, xs, rfl, rfl⟩
  | _ => cases h

end Value

namespace Row

/-- The way to a place, followed in the value that it begins with, leads to the value there. -/
theorem leadsTo_of_reaches {p q : Place} {path : List Step} (h : Reaches p path q) :
    p.value.LeadsTo path q.value := by
  induction h with
  | here => exact .inl rfl
  | layer hv h ih => exact ih
  | item hv hs hl h ih => exact ih.item hv
  | field hs hp hl hx h ih => exact ih.cons (findField_eq_some hx).1

/-- A refinement of the rule at a place that finds issues of its own in some value. -/
def Splices (q : Place) (issues : Issues) : Prop :=
  ∃ c ∈ q.rule.checks, ∃ w, c.condition.test w = .error (.invalid issues)

/-- What is reported about a value as it meets a rule: all that is wrong below, each thing at its
place, and nothing else. What the validations of refinements tell of a value is told from there. No
place is named twice, and a value with which nothing is wrong is accepted, unless there are
refinements with validations of their own. -/
structure Pinpoints (p : Place) (r : Except Issues α) : Prop where
  reached : ∀ path t w, Leads p.rule p.value path t w ↔
    ∃ q, Reaches p path q ∧ q.rule = t ∧ q.value = w
  complete : ∀ path q k, Reaches p path q → Wrong q k → ⟨k.cause, path ++ k.path⟩ ∈ complaints r
  sound : ∀ i ∈ complaints r,
    (∃ q, Reaches p i.path q ∧ p.value.LeadsTo i.path q.value ∧ Wrong q (.here i.cause)) ∨
      (∃ path key q entries, i = ⟨.missing, path ++ [.key key]⟩ ∧ Reaches p path q ∧
        p.value.LeadsTo path (.dict entries) ∧ Value.field? entries key = none ∧
        Wrong q ⟨.missing, [.key key]⟩) ∨
      ∃ path q issues, Reaches p path q ∧ p.value.LeadsTo path q.value ∧ Splices q issues ∧
        i ∈ issues.map fun k => ⟨k.cause, path ++ k.path⟩
  once : (∀ c ∈ p.rule.everyCheck, c.Simple) → ((complaints r).map (·.path)).Nodup
  accepts : (∀ c ∈ p.rule.everyCheck, c.Simple) → (r.isOk = true ↔ ∀ i, ¬Flaw p i)

/-- An issue is with the value itself, or with a key that the value lacks, or it is one of those
that a refinement finds itself. -/
theorem Wrong.cases {q : Place} {k : Issue} (h : Wrong q k) :
    k = .here k.cause ∨ (∃ key entries, k = ⟨.missing, [.key key]⟩ ∧ q.value = .dict entries ∧
      Value.field? entries key = none) ∨ ∃ issues, Splices q issues ∧ k ∈ issues := by
  cases h with
  | leaf | array | object => exact .inl rfl
  | missing hn hr hx => exact .inr (.inl ⟨_, _, rfl, rfl, field?_of_findField hx⟩)
  | refused h hk =>
    obtain ⟨before, c, after, s, w, fit, mid, later, hsplit, -, -, hc⟩ := h
    obtain ⟨⟨⟩⟩ | ⟨cause, ⟨⟩⟩ | ⟨issues, ht, ⟨⟩⟩ := cases_of_judgeCheck hc
    · cases List.mem_singleton.mp hk
      exact .inl rfl
    · exact .inr (.inr ⟨_, ⟨c, by simp [hsplit], w, ht⟩, hk⟩)

theorem Pinpoints.congr {p : Place} {r : Except Issues α} {result : Except Issues β}
    (h : Pinpoints p r) (hc : complaints result = complaints r) (hok : result.isOk = r.isOk) :
    Pinpoints p result :=
  ⟨h.reached, hc ▸ h.complete, hc ▸ h.sound, hc ▸ h.once, hok ▸ h.accepts⟩

theorem pinpoints_judge {name : String} {r : Rule} {s : Schema} {v : Value} {calls later : Calls}
    {result : Judgement} (hr : r.Plain) (hs : schema? name r = some s)
    (h : judge s v calls = (.ok result, later)) : Pinpoints ⟨name, r, v, calls⟩ result := by
  have hexact := exact_of_plain name r hr s hs v calls result later h
  have hclean (hc : ∀ c ∈ r.everyCheck, c.Simple) : Clean result :=
    tidy_schema? name r hr hc hs v calls result later h
  refine ⟨?_, ?_, ?_, fun hc => (hclean hc).once, fun hc => ?_⟩
  · intro path t w
    constructor
    · exact exists_reaches hr hs h
    · rintro ⟨q, hq, rfl, rfl⟩
      exact leads_of_reaches hr hq
  · intro path q k hq hw
    exact (hexact _).mpr ⟨path, q, k, hq, hw, rfl⟩
  · intro i hi
    obtain ⟨path, q, k, hq, hw, rfl⟩ := (hexact i).mp hi
    have hpath := leadsTo_of_reaches hq
    obtain hk | ⟨key, entries, rfl, hv, hkey⟩ | ⟨issues, hsplice, hk⟩ := hw.cases
    · rw [hk] at hw ⊢
      dsimp only [Issue.here]
      rw [List.append_nil]
      exact .inl ⟨q, hq, hpath, hw⟩
    · exact .inr (.inl ⟨path, key, q, entries, rfl, hq, hv ▸ hpath, hkey, hw⟩)
    · exact .inr (.inr ⟨path, q, issues, hq, hpath, hsplice, List.mem_map.mpr ⟨k, hk, rfl⟩⟩)
  · cases result with
    | ok a => exact iff_of_true rfl fun i hi => List.not_mem_nil ((hexact i).mpr hi)
    | error es =>
      refine iff_of_false Bool.false_ne_true fun hno => ?_
      have hnil : complaints (.error es : Judgement) = [] :=
        List.eq_nil_iff_forall_not_mem.mpr fun i hi => hno i ((hexact i).mp hi)
      cases (hclean hc).blames hnil

end Row

end Tablewright
