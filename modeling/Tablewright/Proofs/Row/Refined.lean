import Tablewright.Proofs.Row.Complaints
import Tablewright.Proofs.Row.Layered

namespace Tablewright

def Refinement.Holds (c : Refinement) (v : Value) : Prop := c.condition.test v = .ok true

namespace Run

theorem mapM_error {f : α → Run β} {left right : List α} {x : α} {calls mid later : Calls}
    {ys : List β} {fault : Fault} (hl : left.mapM f calls = (.ok ys, mid))
    (hx : f x mid = (.error fault, later)) :
    (left ++ x :: right).mapM f calls = (.error fault, later) := by
  rw [List.mapM_append, bind_ok hl, List.mapM_cons]
  exact bind_error (bind_error hx)

end Run

namespace Rule

/-- The refinements that a value meets along the layers of a rule, the innermost first. A layer that
admits null keeps it from what is below. -/
def asks (v : Value) : Rule → List Refinement
  | .layer checks l r => (if admitsNull l && v.isNull then [] else r.asks v) ++ checks
  | r => r.checks

end Rule

namespace Row

def afterAsking (checks : List Refinement) (calls : Calls) : Calls :=
  (checks.map (·.condition.slot)).reverse ++ calls

theorem afterAsking_cons (c : Refinement) (cs : List Refinement) (calls : Calls) :
    afterAsking (c :: cs) calls = afterAsking cs (c.condition.slot :: calls) := by
  simp [afterAsking]

/-- What a condition that does not hold makes of a value: one complaint, in the place of the value
itself, the issues of a validation of its own, or the end of the run. -/
inductive Stops (c : Refinement) (w : Value) : Except Fault Judgement → Prop
  | falsy (h : c.condition.test w = .ok false) :
    Stops c w (.ok (reject (.refused c.message)))
  | valueError {text : String} (h : c.condition.test w = .error (.value text)) :
    Stops c w (.ok (reject (.refused text)))
  | assertion {text : String} (h : c.condition.test w = .error (.assertion text)) :
    Stops c w (.ok (reject (.assertion text)))
  | validation {es : Issues} (h : c.condition.test w = .error (.invalid es)) :
    Stops c w (.ok (.error es))
  | fault {f : Fault} (h : c.condition.test w = .error f) (hf : f.isComplaint = false) :
    Stops c w (.error f)

/-- Conditions asked about a value in order: all of them hold, or the first that does not hold is
the last one asked. -/
inductive Asked (checks : List Refinement) (w : Value) (fit : Fit) (calls : Calls) :
    Except Fault Judgement × Calls → Prop
  | accepted (h : ∀ c ∈ checks, c.Holds w) :
    Asked checks w fit calls (.ok (.ok (w, fit)), afterAsking checks calls)
  | stopped {before after : List Refinement} {c : Refinement} {result : Except Fault Judgement}
    (hsplit : checks = before ++ c :: after) (h : ∀ b ∈ before, b.Holds w) (hc : Stops c w result) :
    Asked checks w fit calls (result, afterAsking (before ++ [c]) calls)

section

variable {c : Refinement} {w : Value} {fit : Fit} {calls : Calls} {checks : List Refinement}

theorem judgeCheck_of_holds (h : c.Holds w) :
    judgeCheck c w fit calls = (.ok (.ok (w, fit)), c.condition.slot :: calls) :=
  judgeCheck_eq_ok.mpr ⟨h, rfl, rfl⟩

theorem judgeCheck_of_not_holds (h : ¬c.Holds w) (fit : Fit) (calls : Calls) :
    ∃ result, Stops c w result ∧
      judgeCheck c w fit calls = (result, c.condition.slot :: calls) := by
  have hask : c.condition.ask w calls =
      (c.condition.test w, c.condition.slot :: calls) := rfl
  rw [judgeCheck, hask]
  rw [Refinement.Holds] at h
  cases ha : c.condition.test w with
  | ok b =>
    cases b with
    | true => exact absurd ha h
    | false => exact ⟨_, .falsy ha, rfl⟩
  | error f =>
    cases f with
    | value text => exact ⟨_, .valueError ha, rfl⟩
    | assertion text => exact ⟨_, .assertion ha, rfl⟩
    | invalid es => exact ⟨_, .validation ha, rfl⟩
    | key | mistyped | other => exact ⟨_, .fault ha rfl, rfl⟩

theorem Stops.not_ok {result : Except Fault Judgement} (h : Stops c w result)
    (b : Value × Fit) : result ≠ .ok (.ok b) := by
  cases h <;> simp [reject]

theorem Stops.not_holds {result : Except Fault Judgement} (h : Stops c w result) :
    ¬c.Holds w := by
  intro hc
  rw [Refinement.Holds] at hc
  cases h with
  | falsy h | valueError h | assertion h | validation h | fault h =>
    rw [hc] at h
    cases h

theorem judgeChecks_of_stops {result : Except Fault Judgement} (h : Stops c w result)
    (cs : List Refinement) {mid : Calls} (hj : judgeCheck c w fit calls = (result, mid)) :
    (judgeCheck c w fit >>= judgeChecks cs) calls = (result, mid) := by
  rw [Run.bind_apply, hj]
  cases h <;> cases cs <;> rfl

theorem asked_judgeChecks (checks : List Refinement) (w : Value) (fit : Fit) (calls : Calls) :
    Asked checks w fit calls (judgeChecks checks (.ok (w, fit)) calls) := by
  induction checks generalizing calls with
  | nil => exact .accepted (by rintro c ⟨⟩)
  | cons c cs ih =>
    rw [judgeChecks]
    by_cases hc : c.Holds w
    · rw [Run.bind_ok (judgeCheck_of_holds hc)]
      have hrest := ih (c.condition.slot :: calls)
      generalize judgeChecks cs (.ok (w, fit)) (c.condition.slot :: calls) = run at hrest ⊢
      cases hrest with
      | accepted h =>
        rw [← afterAsking_cons]
        exact .accepted (List.forall_mem_cons.mpr ⟨hc, h⟩)
      | @stopped before after d result hsplit h hd =>
        have hcons : c :: cs = (c :: before) ++ d :: after := by rw [hsplit, List.cons_append]
        rw [← afterAsking_cons]
        exact .stopped hcons (List.forall_mem_cons.mpr ⟨hc, h⟩) hd
    · obtain ⟨result, hstops, hj⟩ := judgeCheck_of_not_holds hc fit calls
      have hfirst : c :: cs = [] ++ c :: cs := rfl
      rw [judgeChecks_of_stops hstops cs hj]
      exact .stopped hfirst (by rintro b ⟨⟩) hstops

theorem Asked.eq_ok_iff {run : Except Fault Judgement × Calls} (h : Asked checks w fit calls run)
    (b : Value × Fit) : run.1 = .ok (.ok b) ↔ b = (w, fit) ∧ ∀ c ∈ checks, c.Holds w := by
  cases h with
  | accepted h =>
    constructor
    · intro hb
      cases hb
      exact ⟨rfl, h⟩
    · rintro ⟨rfl, -⟩
      rfl
  | @stopped before after c result hsplit hbefore hc =>
    constructor
    · exact fun hb => absurd hb (hc.not_ok b)
    · rintro ⟨-, hall⟩
      exact absurd (hall c (by rw [hsplit]; simp)) hc.not_holds

end

theorem judgeChecks_append (cs ds : List Refinement) :
    judgeChecks (cs ++ ds) = fun j => judgeChecks cs j >>= judgeChecks ds := by
  induction cs with
  | nil => simp only [List.nil_append, judgeChecks_nil, pure_bind]
  | cons c cs ih =>
    funext j
    cases j with
    | error es => cases ds <;> rfl
    | ok b =>
      obtain ⟨w, fit⟩ := b
      rw [List.cons_append, judgeChecks, judgeChecks, ih, bind_assoc]

/-- Layers ask their refinements about what is left of a value below them, the innermost layer
first. -/
theorem judge_asks {name : String} {r : Rule} {s : Schema} (hs : schema? name r = some s) :
    ∃ core, schema? name (r.leaf.withChecks []) = some core ∧ ∀ v, judge s v =
      behind (r.layers.any Rule.admitsNull) (judge core) v >>= judgeChecks (r.asks v) := by
  induction r using Rule.layerInduction generalizing s with
  | layer checks l r ih =>
    rw [schema?_layer] at hs
    obtain ⟨t, ht, rfl⟩ := Option.map_eq_some_iff.mp hs
    obtain ⟨core, hcore, hjudge⟩ := ih ht
    refine ⟨core, hcore, fun v => ?_⟩
    rw [judge_refinedBy, judge_behind, Rule.asks, Rule.layers, List.any_cons, judgeChecks_append,
      ← bind_assoc]
    congr 1
    cases hn : Rule.admitsNull l && v.isNull with
    | true =>
      rw [Bool.and_eq_true] at hn
      rw [behind, behind, hn.1, hn.2]
      rfl
    | false =>
      have hbelow : behind (Rule.admitsNull l) (judge t) v = judge t v := by
        rw [behind, hn]
        rfl
      have hrest : behind (Rule.admitsNull l || r.layers.any Rule.admitsNull) (judge core) v =
          behind (r.layers.any Rule.admitsNull) (judge core) v := by
        rw [behind, behind, Bool.and_or_distrib_right, hn, Bool.false_or]
      rw [hbelow, hrest]
      exact hjudge v
  | _ =>
    rw [schema?_withChecks] at hs
    obtain ⟨core, hcore, rfl⟩ := Option.map_eq_some_iff.mp hs
    exact ⟨core, hcore, judge_refinedBy core _⟩

/-- A value whose turn it is: what judges it, and what has been called before. -/
structure Turn where
  schema : Schema
  value : Value
  calls : Calls

def Turn.run (t : Turn) : Except Fault Judgement × Calls := judge t.schema t.value t.calls

/-- Options of a union that have been tried, none of which decides. -/
inductive Tried (v : Value) : List Schema → Calls → Calls → Prop
  | nil (calls : Calls) : Tried v [] calls calls
  | cons {s : Schema} {ss : List Schema} {calls mid later : Calls} {j : Judgement}
    (hj : judge s v calls = (.ok j, mid)) (hd : ∀ b, j = .ok b → b.2.isDecisive = false)
    (h : Tried v ss mid later) : Tried v (s :: ss) calls later

/-- The way from a judgement down to one that is made on behalf of it, with the keys, the positions
and the labels on it. -/
inductive Enters : Turn → List Step → Turn → Prop
  | here (t : Turn) : Enters t [] t
  | nullable {s : Schema} {v : Value} {calls : Calls} {path : List Step} {t : Turn}
    (hv : v.isNull = false) (h : Enters ⟨s, v, calls⟩ path t) :
    Enters ⟨.nullable s, v, calls⟩ path t
  | refined {s : Schema} {c : Refinement} {v : Value} {calls : Calls} {path : List Step} {t : Turn}
    (h : Enters ⟨s, v, calls⟩ path t) : Enters ⟨.refined s c, v, calls⟩ path t
  | option {left right : List Schema} {s : Schema} {v : Value} {calls mid : Calls}
    {path : List Step} {t : Turn} (hl : Tried v left calls mid) (h : Enters ⟨s, v, mid⟩ path t) :
    Enters ⟨.union (left ++ s :: right), v, calls⟩ (.key s.label :: path) t
  | item {s : Schema} {v x : Value} {left right : List Value} {e : Exactness} {calls mid : Calls}
    {js : List Judgement} {path : List Step} {t : Turn}
    (hv : Coercion.toItems v = some (left ++ x :: right, e))
    (hl : left.mapM (judge s) calls = (.ok js, mid)) (h : Enters ⟨s, x, mid⟩ path t) :
    Enters ⟨.list s, v, calls⟩ (.index left.length :: path) t
  | field {name key : String} {left right : List (Head × Schema)} {head : Head} {s : Schema}
    {entries : Entries} {x : Value} {calls mid : Calls} {js : List Judgement} {path : List Step}
    {t : Turn} (hl : left.mapM (fun f => judgeField (judge f.2) f.1 entries) calls = (.ok js, mid))
    (hx : findField head.name entries = some (key, x)) (h : Enters ⟨s, x, mid⟩ path t) :
    Enters ⟨.object name (left ++ (head, s) :: right), .dict entries, calls⟩ (.key key :: path) t

theorem judgeOptions_of_tried {v : Value} {left : List Schema} {calls mid : Calls}
    (h : Tried v left calls mid) (rest : List Schema) (best : Option (Value × Fit))
    (issues : Issues) :
    ∃ kept told, judgeOptions (left ++ rest) best issues v calls =
      judgeOptions rest kept told v mid := by
  induction h generalizing best issues with
  | nil => exact ⟨best, issues, rfl⟩
  | @cons s ss calls mid later j hj hd _ ih =>
    rw [List.cons_append, judgeOptions_cons, Run.bind_ok hj]
    cases j with
    | ok b =>
      dsimp only
      rw [hd b rfl, if_neg Bool.false_ne_true]
      exact ih (keepBest best b) issues
    | error es => exact ih best (issues ++ es.underKey s.label)

theorem subset_of_judgeOptions {ss : List Schema} {best : Option (Value × Fit)}
    {issues es : Issues} {v : Value} {calls later : Calls}
    (h : judgeOptions ss best issues v calls = (.ok (.error es), later)) : issues ⊆ es := by
  induction ss generalizing best issues calls with
  | nil =>
    rw [judgeOptions_nil] at h
    cases best with
    | none =>
      cases h
      exact List.Subset.refl _
    | some b => cases h
  | cons s ss ih =>
    rw [judgeOptions_cons] at h
    obtain ⟨result, mid, -, h⟩ := Run.bind_eq_ok.mp h
    cases result with
    | ok b =>
      dsimp only at h
      split at h
      · cases h
      · exact ih h
    | error fs => exact List.Subset.trans (List.subset_append_left _ _) (ih h)

theorem fault_of_enters {p q : Turn} {path : List Step} (h : Enters p path q) {f : Fault}
    {later : Calls} (hq : q.run = (.error f, later)) : p.run = (.error f, later) := by
  induction h with
  | here => exact hq
  | nullable hv _ ih =>
    rw [Turn.run, judge_nullable, if_neg (Bool.eq_false_iff.mp hv)]
    exact ih hq
  | refined _ ih =>
    rw [Turn.run, judge_refined]
    exact Run.bind_error (ih hq)
  | option hl _ ih =>
    obtain ⟨kept, told, htried⟩ := judgeOptions_of_tried hl _ none []
    rw [Turn.run, judge_union, htried, judgeOptions_cons]
    exact Run.bind_error (ih hq)
  | item hv hl _ ih =>
    rw [Turn.run, judge_list, hv]
    dsimp only
    rw [judgeItems_eq]
    exact Run.bind_error (Run.bind_error (Run.mapM_error hl (ih hq)))
  | field hl hx _ ih =>
    rw [Turn.run, judge_object]
    dsimp only
    rw [judgeFields_eq]
    refine Run.bind_error (Run.bind_error (Run.mapM_error hl ?_))
    rw [judgeField, hx]
    exact Run.bind_error (ih hq)

/-- A union on the way that accepts its value after all, by another one of its options. -/
def Overruled (p : Turn) (path : List Step) (q : Turn) : Prop :=
  ∃ front back u options b later, path = front ++ back ∧ Enters p front u ∧ Enters u back q ∧
    u.schema = .union options ∧ u.run = (.ok (.ok b), later)

theorem Overruled.lift {p p' q : Turn} {path : List Step} (h : Overruled p path q)
    (way : List Step) (hp : ∀ front u, Enters p front u → Enters p' (way ++ front) u) :
    Overruled p' (way ++ path) q := by
  obtain ⟨front, back, u, options, b, later, rfl, hfront, hrest⟩ := h
  exact ⟨way ++ front, back, u, options, b, later, (List.append_assoc ..).symm, hp front u hfront,
    hrest⟩

def ToldFrom (path : List Step) (below : Issues) (above : Judgement) : Prop :=
  ∀ i ∈ below, ⟨i.cause, path ++ i.path⟩ ∈ complaints above

theorem told_of_item {s : Schema} {v x : Value} {left right : List Value} {e : Exactness}
    {calls mid later : Calls} {js : List Judgement} {j : Judgement}
    (hv : Coercion.toItems v = some (left ++ x :: right, e))
    (hl : left.mapM (judge s) calls = (.ok js, mid))
    (h : judge (.list s) v calls = (.ok j, later)) :
    ∃ y after, judge s x mid = (.ok y, after) ∧
      ∀ i ∈ complaints y, ⟨i.cause, .index left.length :: i.path⟩ ∈ complaints j := by
  obtain ⟨results, hresults, hcomplaints, -⟩ := exists_items_of_judge hv h
  obtain ⟨lefts, before, y, after, rights, hlefts, hy, rfl, hlength⟩ := Run.mapM_split hresults
  rw [hl] at hlefts
  cases hlefts
  refine ⟨y, after, hy, fun i hi => ?_⟩
  rw [hcomplaints]
  refine mem_joinItems.mpr ⟨js, y, rights, rfl, i, hi, ?_⟩
  rw [hlength, Nat.zero_add]
  rfl

theorem told_of_field {name key : String} {left right : List (Head × Schema)} {head : Head}
    {s : Schema} {entries : Entries} {x : Value} {calls mid later : Calls} {js : List Judgement}
    {j : Judgement}
    (hl : left.mapM (fun f => judgeField (judge f.2) f.1 entries) calls = (.ok js, mid))
    (hx : findField head.name entries = some (key, x))
    (h : judge (.object name (left ++ (head, s) :: right)) (.dict entries) calls =
      (.ok j, later)) :
    ∃ y after, judge s x mid = (.ok y, after) ∧
      ∀ i ∈ complaints y, ⟨i.cause, .key key :: i.path⟩ ∈ complaints j := by
  obtain ⟨results, hresults, hcomplaints, -⟩ := exists_fields_of_judge h
  have hnames : results.length = ((left ++ (head, s) :: right).map (·.1.name.column)).length := by
    rw [List.length_map, Run.length_of_mapM hresults]
  obtain ⟨lefts, before, y, after, rights, hlefts, hy, rfl, -⟩ := Run.mapM_split hresults
  rw [hl] at hlefts
  cases hlefts
  rw [judgeField, hx] at hy
  obtain ⟨inner, _, hinner, hy⟩ := Run.bind_eq_ok.mp hy
  cases hy
  refine ⟨inner, after, hinner, fun i hi => ?_⟩
  rw [hcomplaints]
  refine (mem_joinAll hnames).mpr ⟨js, _, rights, rfl, ?_⟩
  rw [complaints_under, complaints_countGiven]
  exact List.mem_map.mpr ⟨i, hi, rfl⟩

/-- The complaints of a judgement are told from wherever it is made on behalf of, unless a union on
the way accepts its value after all. -/
theorem told_of_enters {p q : Turn} {path : List Step} (h : Enters p path q) {es : Issues}
    {after : Calls} (hq : q.run = (.ok (.error es), after)) {j : Judgement} {later : Calls}
    (hp : p.run = (.ok j, later)) : ToldFrom path es j ∨ Overruled p path q := by
  induction h generalizing j later with
  | here =>
    rw [hq] at hp
    cases hp
    exact .inl fun i hi => hi
  | nullable hv _ ih =>
    rw [Turn.run, judge_nullable, if_neg (Bool.eq_false_iff.mp hv)] at hp
    exact (ih hq hp).imp id fun h => h.lift [] fun _ _ => .nullable hv
  | refined _ ih =>
    rw [Turn.run, judge_refined] at hp
    obtain ⟨inner, mid, hinner, hp⟩ := Run.bind_eq_ok.mp hp
    refine (ih hq hinner).imp (fun h i hi => ?_) fun h => h.lift [] fun _ _ => .refined
    have hmem := h i hi
    cases inner with
    | ok b => cases hmem
    | error fs =>
      cases hp
      exact hmem
  | @option left right s v calls mid path t hl ht ih =>
    cases j with
    | ok b =>
      exact .inr ⟨[], _, _, _, b, later, rfl, .here _, .option hl ht, rfl, hp⟩
    | error fs =>
      obtain ⟨kept, told, htried⟩ := judgeOptions_of_tried hl (s :: right) none []
      rw [Turn.run, judge_union, htried, judgeOptions_cons] at hp
      obtain ⟨inner, last, hinner, hp⟩ := Run.bind_eq_ok.mp hp
      refine (ih hq hinner).imp (fun h i hi => ?_) fun h =>
        h.lift [.key s.label] fun _ _ => .option hl
      have hmem := h i hi
      cases inner with
      | ok b => cases hmem
      | error gs =>
        refine subset_of_judgeOptions hp (List.mem_append_right told ?_)
        exact List.mem_map.mpr ⟨_, hmem, rfl⟩
  | @item s v x left right e calls mid js path t hv hl ht ih =>
    obtain ⟨y, after, hy, htold⟩ := told_of_item hv hl hp
    exact (ih hq hy).imp (fun h i hi => htold _ (h i hi)) fun h =>
      h.lift [.index left.length] fun _ _ => .item hv hl
  | @field name key left right head s entries x calls mid js path t hl hx ht ih =>
    obtain ⟨y, after, hy, htold⟩ := told_of_field hl hx hp
    exact (ih hq hy).imp (fun h i hi => htold _ (h i hi)) fun h =>
      h.lift [.key key] fun _ _ => .field hl hx

theorem validate_of_judge_object {m : Model} {row : Entries} {calls later : Calls} {f : Fault}
    (h : judge (.object m.name m.fields) (.dict row) calls = (.error f, later)) :
    m.validate (.dict row) calls = (.error f, later) := by
  rw [judge_object] at h
  rw [Model.validate]
  dsimp only at h ⊢
  rw [Run.bind_apply] at h ⊢
  cases hj : judgeFields m.fields row calls with
  | mk result mid =>
    rw [hj] at h
    cases result with
    | ok columns => cases h
    | error g =>
      cases h
      rfl

/-- What the refinements of a rule make of what it accepts without them. -/
structure Refines (name : String) (r : Rule) (base full : Schema) : Prop where
  /-- What is not accepted without them has the same complaints, and none of them is asked. -/
  rejected : ∀ v calls es later, judge base v calls = (.ok (.error es), later) →
    judge full v calls = (.ok (.error es), later)
  ended : ∀ v calls f later, judge base v calls = (.error f, later) →
    judge full v calls = (.error f, later)
  /-- They are asked in order about what has been accepted, up to the first that does not hold. -/
  asked : ∀ v calls w fit mid, judge base v calls = (.ok (.ok (w, fit)), mid) →
    Asked r.checks w fit mid (judge full v calls)
  accepts : ∀ v calls w fit mid, judge base v calls = (.ok (.ok (w, fit)), mid) →
    ∀ b, (judge full v calls).1 = .ok (.ok b) ↔ b = (w, fit) ∧ ∀ c ∈ r.checks, c.Holds w
  worded : ∀ text, (Cause.refused text).code = "value_error" ∧
    (Cause.refused text).message = "Value error, " ++ text
  /-- Those of the leaf are asked first, and then those of its layers, from the innermost on. -/
  layered : ∃ core, schema? name (r.leaf.withChecks []) = some core ∧ ∀ v calls w fit mid,
    behind (r.layers.any Rule.admitsNull) (judge core) v calls = (.ok (.ok (w, fit)), mid) →
    Asked (r.asks v) w fit mid (judge full v calls)
  /-- Wherever the rule is used in a row, a fault of a refinement ends the row. -/
  ends : ∀ (m : Model) row calls path v mid f later,
    Enters ⟨.object m.name m.fields, .dict row, calls⟩ path ⟨full, v, mid⟩ →
    judge full v mid = (.error f, later) → m.validate (.dict row) calls = (.error f, later)
  /-- A refusal is told in the place of the value, unless a union around it accepts more. -/
  located : ∀ (m : Model) row calls path v mid es after result later,
    Enters ⟨.object m.name m.fields, .dict row, calls⟩ path ⟨full, v, mid⟩ →
    judge full v mid = (.ok (.error es), after) →
    m.validate (.dict row) calls = (.ok result, later) →
    (∀ i ∈ es, ⟨i.cause, path ++ i.path⟩ ∈ complaints result) ∨
      Overruled ⟨.object m.name m.fields, .dict row, calls⟩ path ⟨full, v, mid⟩

/-- Refinements are asked in order about what their rule accepts without them, and the first one
that does not hold decides. -/
theorem refines_schema? {name : String} {r : Rule} {base : Schema}
    (h : schema? name (r.withChecks []) = some base) :
    ∃ full, schema? name r = some full ∧ Refines name r base full := by
  have hfull : schema? name r = some (base.refinedBy r.checks) := by
    rw [schema?_withChecks, h]
    rfl
  have hasked : ∀ v calls w fit mid, judge base v calls = (.ok (.ok (w, fit)), mid) →
      Asked r.checks w fit mid (judge (base.refinedBy r.checks) v calls) := by
    intro v calls w fit mid hj
    rw [judge_refinedBy, Run.bind_ok hj]
    exact asked_judgeChecks r.checks w fit mid
  refine ⟨base.refinedBy r.checks, hfull, ?_⟩
  constructor
  case rejected =>
    intro v calls es later hj
    rw [judge_refinedBy, Run.bind_ok hj]
    cases r.checks <;> rfl
  case ended =>
    intro v calls f later hj
    rw [judge_refinedBy]
    exact Run.bind_error hj
  case asked => exact hasked
  case accepts => exact fun v calls w fit mid hj => (hasked v calls w fit mid hj).eq_ok_iff
  case worded => exact fun text => ⟨rfl, rfl⟩
  case layered =>
    obtain ⟨core, hcore, hjudge⟩ := judge_asks hfull
    refine ⟨core, hcore, fun v calls w fit mid hj => ?_⟩
    rw [hjudge, Run.bind_ok hj]
    exact asked_judgeChecks (r.asks v) w fit mid
  case ends =>
    intro m row calls path v mid f later hpath hj
    exact validate_of_judge_object (fault_of_enters hpath hj)
  case located =>
    intro m row calls path v mid es after result later hpath hj hrow
    obtain ⟨j, hobject, hcomplaints, -⟩ := exists_judge_of_validate hrow
    refine (told_of_enters hpath hj hobject).imp (fun htold i hi => ?_) id
    rw [← hcomplaints]
    exact htold i hi

def onTexts (p : String → Bool) : Value → Except Fault Bool
  | .text s => .ok (p s)
  | _ => .error .mistyped

def briefly : Rule :=
  .layer [⟨.ofTest 2 (onTexts (· ≠ "")), "empty"⟩,
      ⟨.ofTest 3 fun _ => .error (.other "RuntimeError" "out of order"), "never said"⟩] .nullable
    (.scalar [⟨.ofTest 0 (onTexts (·.length ≤ 3)), "long"⟩,
      ⟨.ofTest 1 (onTexts (!·.toList.contains '-')), "dashed"⟩] (.string (.plain none)))

theorem refines_briefly :
    ∃ base full, schema? "Row" (briefly.withChecks []) = some base ∧
      schema? "Row" briefly = some full ∧ Refines "Row" briefly base full ∧
      judge full (.text "----") [] = (.ok (reject (.refused "long")), [0]) ∧
      judge full (.text "a-b") [] = (.ok (reject (.refused "dashed")), [1, 0]) ∧
      judge full (.text "") [] = (.ok (reject (.refused "empty")), [2, 1, 0]) ∧
      judge full (.text "ab") [] =
        (.error (.other "RuntimeError" "out of order"), [3, 2, 1, 0]) := by
  obtain ⟨full, hfull, hrefines⟩ := @refines_schema? "Row" briefly _ rfl
  cases hfull
  exact ⟨_, _, rfl, rfl, hrefines, rfl, rfl, rfl, rfl⟩

def vetted : Rule :=
  .scalar [⟨.ofTest 0 fun _ => .error (.invalid [⟨.missing, [.key "a"]⟩, ⟨.missing, [.key "b"]⟩]),
    "unfit"⟩] .bigint

/-- A condition with a validation of its own refuses a value with several complaints, none of which
is in the place of the value. The options of a union complain under other labels once they are
refined. -/
theorem refined_elsewhere :
    (∃ base full, schema? "Row" (vetted.withChecks []) = some base ∧
      schema? "Row" vetted = some full ∧
      judge base (.int 1) [] = (.ok (.ok (.int 1, .exact)), []) ∧
      judge full (.int 1) [] =
        (.ok (.error [⟨.missing, [.key "a"]⟩, ⟨.missing, [.key "b"]⟩]), [0])) ∧
    ∃ base full, schema? "Row" (.union [] [vetted.withChecks [], .scalar [] .blob]) = some base ∧
      schema? "Row" (.union [] [vetted, .scalar [] .blob]) = some full ∧
      (judge base .null []).1.toOption.map (fun j => (complaints j).map (·.path)) =
        some [[.key "int"], [.key "bytes"]] ∧
      (judge full .null []).1.toOption.map (fun j => (complaints j).map (·.path)) =
        some [[.key "function-after[check(), int]"], [.key "bytes"]] := by
  exact ⟨⟨_, _, rfl, rfl, rfl, rfl⟩, _, _, rfl, rfl, rfl, rfl⟩

end Row

end Tablewright
