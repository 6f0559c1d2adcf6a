import Mathlib.Data.List.Forall2
import Tablewright.Proofs.Row.Columns
import Tablewright.Proofs.Row.Null

namespace Tablewright

namespace Rule

/-- A rule with layers around it, the outermost first, none of which has conditions. -/
def wrappedIn (layers : List Layer) (r : Rule) : Rule := layers.foldr (layer []) r

/-- What layers leave of a rule in the face of a value: where one of them admits null, null is
taken for null, and everything else is left to the rule. -/
def facing (layers : List Layer) (r : Rule) (v : Value) : Rule :=
  if layers.any admitsNull && v.isNull then .scalar [] .null else r

end Rule

namespace Row

/-- However many layers there are, in whatever order, only this counts: whether one of them admits
null. -/
theorem schema?_wrappedIn (name : String) (layers : List Layer) (r : Rule) :
    schema? name (r.wrappedIn layers) = (schema? name r).map fun s =>
      if layers.any Rule.admitsNull then s.orNull else s := by
  induction layers with
  | nil => exact Option.map_id'.symm
  | cons l ls ih =>
    have hcons : r.wrappedIn (l :: ls) = .layer [] l (r.wrappedIn ls) := rfl
    rw [hcons, schema?_layer, ih, Option.map_map, List.any_cons]
    congr 1
    funext s
    cases Rule.admitsNull l <;> cases ls.any Rule.admitsNull <;>
      simp [Schema.refinedBy]

def behind (admits : Bool) (one : Value → Run Judgement) (v : Value) : Run Judgement :=
  if admits && v.isNull then Pure.pure (.ok (.null, .exact)) else one v

theorem judge_behind (admits : Bool) (s : Schema) :
    judge (if admits then s.orNull else s) = behind admits (judge s) := by
  funext v calls
  cases admits with
  | false => rfl
  | true =>
    rw [if_pos rfl, behind, Bool.true_and]
    cases hn : v.isNull with
    | true => exact judge_orNull_null s hn calls
    | false => rw [judge_orNull s hn, if_neg Bool.false_ne_true]

/-- What becomes of an accepted value when conditions are asked about it, one after the other. -/
def judgeChecks : List Refinement → Judgement → Run Judgement
  | _, .error es => Pure.pure (.error es)
  | [], .ok b => Pure.pure (.ok b)
  | c :: cs, .ok (w, fit) => judgeCheck c w fit >>= judgeChecks cs

theorem judgeChecks_nil : judgeChecks [] = Pure.pure := by
  funext j
  cases j <;> rfl

theorem judge_refinedBy (s : Schema) (checks : List Refinement) (v : Value) :
    judge (s.refinedBy checks) v = judge s v >>= judgeChecks checks := by
  induction checks generalizing s with
  | nil => rw [judgeChecks_nil, bind_pure, Schema.refinedBy, List.foldl_nil]
  | cons c cs ih =>
    have hcons : s.refinedBy (c :: cs) = (Schema.refined s c).refinedBy cs := rfl
    rw [hcons, ih, judge_refined, bind_assoc]
    congr 1
    funext j
    cases j with
    | ok b => rfl
    | error es => cases cs <;> rfl

def judgeArray (one : Value → Run Judgement) (v : Value) : Run Judgement :=
  match Coercion.toItems v with
  | none => Pure.pure (reject .notList)
  | some (xs, e) => do
    let items ← judgeItems one 0 xs
    return items.map fun (vs, f) => (.list vs, (Fit.ofExactness e).both f)

theorem judge_array {name : String} {r : Rule} {t : Schema} (checks : List Refinement)
    (ht : schema? (name ++ "Item") r = some t) :
    ∃ s, schema? name (.array checks r) = some s ∧
      ∀ v, judge s v = judgeArray (judge t) v >>= judgeChecks checks := by
  refine ⟨(Schema.list t).refinedBy checks, by rw [schema?, ht]; rfl, fun v => ?_⟩
  rw [judge_refinedBy, judge_list]
  rfl

structure SameIn (entries : Entries) (f g : Head × Schema) : Prop where
  name : f.1.name = g.1.name
  judged : judgeField (judge f.2) f.1 entries = judgeField (judge g.2) g.1 entries

section

variable {entries : Entries} {f g : Head × Schema} {fs gs : List (Head × Schema)}

theorem judgeFields_congr (h : List.Forall₂ (SameIn entries) fs gs) :
    judgeFields fs entries = judgeFields gs entries := by
  induction h with
  | nil => rfl
  | @cons f g fs gs hfg _ ih =>
    obtain ⟨hname, hjudged⟩ := hfg
    rw [judgeFields_cons f.1 f.2 fs, judgeFields_cons g.1 g.2 gs, hjudged, hname, ih]

theorem givenFields_congr (h : List.Forall₂ (SameIn entries) fs gs) :
    givenFields fs entries = givenFields gs entries := by
  induction h with
  | nil => rfl
  | cons hfg _ ih =>
    rw [givenFields, givenFields] at ih ⊢
    rw [List.filter_cons, List.filter_cons, hfg.name]
    split
    · rw [List.map_cons, List.map_cons, ih, hfg.name]
    · exact ih

theorem forall₂_insertField (hfg : SameIn entries f g) (h : List.Forall₂ (SameIn entries) fs gs) :
    List.Forall₂ (SameIn entries) (insertField f fs) (insertField g gs) := by
  induction h with
  | nil => exact .cons hfg .nil
  | @cons a b as bs hab hrest ih =>
    rw [insertField, insertField, hfg.name, hab.name]
    split
    · exact .cons hfg hrest
    · exact .cons hab ih

theorem forall₂_foldl_insertField (h : List.Forall₂ (SameIn entries) fs gs)
    {done other : List (Head × Schema)} (hd : List.Forall₂ (SameIn entries) done other) :
    List.Forall₂ (SameIn entries) (fs.foldl (fun done f => insertField f done) done)
      (gs.foldl (fun done g => insertField g done) other) := by
  induction h generalizing done other with
  | nil => exact hd
  | cons hfg _ ih => exact ih (forall₂_insertField hfg hd)

theorem map_fst_replace (left right : List (String × Rule)) (column : String) (r r' : Rule) :
    (left ++ (column, r') :: right).map (·.1) = (left ++ (column, r) :: right).map (·.1) := by
  simp only [List.map_append, List.map_cons]

theorem fields?_replace {model column : String} {r r' : Rule} {n : FieldName}
    {right : List (String × Rule)}
    (hr : ∀ s, schema? (model ++ pascal column) r = some s →
      ∃ t, schema? (model ++ pascal column) r' = some t ∧
        SameIn entries (⟨n, absence r⟩, s) (⟨n, absence r'⟩, t))
    (left : List (String × Rule)) {names : List FieldName} (hn : names[left.length]? = some n)
    (h : fields? model (left ++ (column, r) :: right) names = some fs) :
    ∃ gs, fields? model (left ++ (column, r') :: right) names = some gs ∧
      List.Forall₂ (SameIn entries) fs gs := by
  induction left generalizing names fs with
  | nil =>
    cases names with
    | nil => cases hn
    | cons m ms =>
      cases hn
      rw [List.nil_append, fields?] at h
      split at h
      · rename_i s rest hs hrest
        cases h
        obtain ⟨t, ht, hst⟩ := hr s hs
        refine ⟨(⟨n, absence r'⟩, t) :: rest, ?_, .cons hst ?_⟩
        · rw [List.nil_append, fields?, ht, hrest]
        · exact List.forall₂_same.mpr fun f _ => ⟨rfl, rfl⟩
      · cases h
  | cons c left ih =>
    obtain ⟨other, q⟩ := c
    cases names with
    | nil => cases hn
    | cons m ms =>
      rw [List.cons_append, fields?] at h
      split at h
      · rename_i s rest hs hrest
        cases h
        obtain ⟨gs, hgs, hall⟩ := ih hn hrest
        refine ⟨(⟨m, absence q⟩, s) :: gs, ?_, .cons ⟨rfl, rfl⟩ hall⟩
        rw [List.cons_append, fields?, hs, hgs]
      · cases h

theorem judge_object_replace {name column : String} {r r' : Rule} {checks : List Refinement}
    {left right : List (String × Rule)} {n : FieldName}
    (hn : (fieldNames ((left ++ (column, r) :: right).map (·.1)))[left.length]? = some n)
    (hr : ∀ s, schema? (name ++ pascal column) r = some s →
      ∃ t, schema? (name ++ pascal column) r' = some t ∧
        SameIn entries (⟨n, absence r⟩, s) (⟨n, absence r'⟩, t))
    {s : Schema} (hs : schema? name (.object checks (left ++ (column, r) :: right)) = some s) :
    ∃ t, schema? name (.object checks (left ++ (column, r') :: right)) = some t ∧
      judge s (.dict entries) = judge t (.dict entries) := by
  rw [schema?] at hs
  obtain ⟨fs, hfs, rfl⟩ := Option.map_eq_some_iff.mp hs
  obtain ⟨gs, hgs, hall⟩ := fields?_replace hr left hn hfs
  refine ⟨(Schema.object name gs).refinedBy checks, ?_, ?_⟩
  · rw [schema?, map_fst_replace left right column r r', hgs]
    rfl
  · rw [judge_refinedBy, judge_refinedBy, judge_object, judge_object]
    dsimp only
    rw [judgeFields_congr hall, givenFields_congr hall]

theorem validate_replace {name column : String} {r r' : Rule}
    {left right : List (String × Rule)} {n : FieldName}
    (hn : (fieldNames ((left ++ (column, r) :: right).map (·.1)))[left.length]? = some n)
    (hr : ∀ s, schema? (name ++ pascal column) r = some s →
      ∃ t, schema? (name ++ pascal column) r' = some t ∧
        SameIn entries (⟨n, absence r⟩, s) (⟨n, absence r'⟩, t))
    {m : Model} (hm : Model.ofColumns? name (left ++ (column, r) :: right) = some m) :
    ∃ m', Model.ofColumns? name (left ++ (column, r') :: right) = some m' ∧
      m.validate (.dict entries) = m'.validate (.dict entries) := by
  rw [Model.ofColumns?] at hm
  obtain ⟨fs, hfs, rfl⟩ := Option.map_eq_some_iff.mp hm
  obtain ⟨gs, hgs, hall⟩ := fields?_replace hr left hn hfs
  refine ⟨⟨name, gs.foldl (fun done g => insertField g done) []⟩, ?_, ?_⟩
  · rw [Model.ofColumns?, map_fst_replace left right column r r', hgs]
    rfl
  · rw [Model.validate, Model.validate]
    dsimp only
    rw [judgeFields_congr (forall₂_foldl_insertField hall .nil)]

end

theorem schema?_facing {name : String} (layers : List Layer) {r : Rule} {t : Schema}
    (ht : schema? name r = some t) (v : Value) :
    ∃ u, schema? name (r.facing layers v) = some u ∧
      behind (layers.any Rule.admitsNull) (judge t) v = judge u v := by
  rw [Rule.facing, behind]
  split
  · rename_i h
    rw [Bool.and_eq_true] at h
    refine ⟨.null, rfl, ?_⟩
    rw [judge_leaf rfl, judgeLeaf, if_pos h.2]
  · exact ⟨t, ht, rfl⟩

/-- A field that is given is judged like one without the layers, in the face of what is given. -/
theorem sameIn_wrappedIn {model column : String} {layers : List Layer} {r : Rule} {n : FieldName}
    {entries : Entries} {key : String} {v : Value} (hv : findField n entries = some (key, v))
    (s : Schema) (hs : schema? (model ++ pascal column) (r.wrappedIn layers) = some s) :
    ∃ t, schema? (model ++ pascal column) (r.facing layers v) = some t ∧
      SameIn entries (⟨n, absence (r.wrappedIn layers)⟩, s)
        (⟨n, absence (r.facing layers v)⟩, t) := by
  rw [schema?_wrappedIn] at hs
  obtain ⟨t, ht, rfl⟩ := Option.map_eq_some_iff.mp hs
  obtain ⟨u, hu, hjudge⟩ := schema?_facing layers ht v
  refine ⟨u, hu, rfl, ?_⟩
  rw [judgeField, judgeField, hv, judge_behind]
  dsimp only
  rw [hjudge]

/-- Layers without conditions, through which a rule shows wherever it is used. -/
structure Transparent (layers : List Layer) (r : Rule) : Prop where
  /-- Layers make a rule neither meaningless nor meaningful. -/
  made : ∀ name, (schema? name (r.wrappedIn layers)).isSome = (schema? name r).isSome
  /-- What is there is judged as without the layers: results, complaints, faults and calls. -/
  present : ∀ name s t, schema? name (r.wrappedIn layers) = some s → schema? name r = some t →
    ∀ v, v ≠ .null → judge s v = judge t v
  /-- Behind a layer that admits null, null is accepted as it is, and nothing is called. -/
  null : ∀ name s, schema? name (r.wrappedIn layers) = some s → layers.any Rule.admitsNull = true →
    ∀ calls, judge s .null calls = (.ok (.ok (.null, .exact)), calls)
  /-- Otherwise null is what it is without the layers. -/
  strict : ∀ name, layers.any Rule.admitsNull = false →
    schema? name (r.wrappedIn layers) = schema? name r
  /-- The items of an array are judged by themselves, each behind the layers. -/
  item : ∀ name checks t, schema? (name ++ "Item") r = some t →
    ∃ s s', schema? name (.array checks r) = some s ∧
      schema? name (.array checks (r.wrappedIn layers)) = some s' ∧
      (∀ v, judge s v = judgeArray (judge t) v >>= judgeChecks checks) ∧
      ∀ v, judge s' v =
        judgeArray (behind (layers.any Rule.admitsNull) (judge t)) v >>= judgeChecks checks
  /-- Of a field that is given, an object makes what it makes without the layers. -/
  field : ∀ name checks left column right n entries key v,
    (fieldNames ((left ++ (column, r) :: right).map (·.1)))[left.length]? = some n →
    findField n entries = some (key, v) →
    ∀ s, schema? name (.object checks (left ++ (column, r.wrappedIn layers) :: right)) = some s →
      ∃ t, schema? name (.object checks (left ++ (column, r.facing layers v) :: right)) = some t ∧
        judge s (.dict entries) = judge t (.dict entries)
  /-- Of a column that is given, a row makes what it makes without the layers. -/
  column : ∀ name left column right n entries key v,
    (fieldNames ((left ++ (column, r) :: right).map (·.1)))[left.length]? = some n →
    findField n entries = some (key, v) →
    ∀ m, Model.ofColumns? name (left ++ (column, r.wrappedIn layers) :: right) = some m →
      ∃ m', Model.ofColumns? name (left ++ (column, r.facing layers v) :: right) = some m' ∧
        m.validate (.dict entries) = m'.validate (.dict entries)

end Row

end Tablewright
