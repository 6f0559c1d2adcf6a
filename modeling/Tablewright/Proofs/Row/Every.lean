import Tablewright.Proofs.Rule.Functions
import Tablewright.Proofs.Row.Layers

namespace Tablewright

namespace Row

section

variable (C : Schema → Refinement → Prop) (F : Callable → Prop)

def Absence.Every : Absence → Prop
  | .factory f => F f
  | .refused | .value _ => True

mutual

/-- What holds of every condition of a schema, with the schema of what it is asked about, and of
every function. -/
def Schema.Every : Schema → Prop
  | .nullable s | .list s => s.Every
  | .union ss => EveryOf ss
  | .object _ fs => EveryIn fs
  | .refined s c => s.Every ∧ C s c
  | _ => True

def EveryOf : List Schema → Prop
  | [] => True
  | s :: ss => s.Every ∧ EveryOf ss

def EveryIn : List (Head × Schema) → Prop
  | [] => True
  | (h, s) :: fs => h.absence.Every F ∧ s.Every ∧ EveryIn fs

end

end

/-- A closed property of computations that asking these conditions about what is accepted before
them has, and calling these functions. -/
structure Covers (K : ∀ {α : Type}, Run α → Prop) (C : Schema → Refinement → Prop)
    (F : Callable → Prop) : Prop extends Run.Closed K where
  ask : ∀ {s : Schema} {c : Refinement}, C s c → ∀ v w fit,
    (judge s v).MayGive (.ok (w, fit)) → K (judgeCheck c w fit)
  call : ∀ {f : Callable}, F f → K f.supply

section

variable {C : Schema → Refinement → Prop} {F : Callable → Prop} {K : ∀ {α : Type}, Run α → Prop}
  (hK : Covers K C F)

include hK

theorem closed_judgeItems {judgeOne : Value → Run Judgement} (h : ∀ v, K (judgeOne v))
    (position : Nat) (vs : List Value) : K (judgeItems judgeOne position vs) := by
  induction vs generalizing position with
  | nil => exact hK.pure _
  | cons v vs ih =>
    rw [judgeItems]
    exact hK.bind (h v) fun _ _ => hK.bind (ih (position + 1)) fun _ _ => hK.pure _

theorem closed_judgeAbsent {h : Head} (hq : h.absence.Every F) : K (judgeAbsent h) := by
  obtain ⟨name, absence⟩ := h
  cases absence with
  | refused | value => exact hK.pure _
  | factory f => exact hK.bind (hK.call hq) fun _ _ => hK.pure _

theorem closed_judgeField {judgeOne : Value → Run Judgement} (h : ∀ v, K (judgeOne v))
    {head : Head} (hq : head.absence.Every F) (entries : Entries) :
    K (judgeField judgeOne head entries) := by
  rw [judgeField]
  cases findField head.name entries with
  | none => exact closed_judgeAbsent hK hq
  | some p => exact hK.bind (h p.2) fun _ _ => hK.pure _

mutual

theorem closed_judge : ∀ s : Schema, s.Every C F → ∀ v, K (judge s v)
  | .nullable s, h, v => by
    rw [judge_nullable]
    split
    · exact hK.pure _
    · exact closed_judge s h v
  | .union ss, h, v => by
    rw [judge_union]
    exact closed_judgeOptions ss h none [] v
  | .list s, h, v => by
    rw [judge]
    dsimp only
    split
    · exact hK.pure _
    · exact hK.bind (closed_judgeItems hK (closed_judge s h) 0 _) fun _ _ => hK.pure _
  | .object name fs, h, v => by
    rw [judge]
    dsimp only
    split
    · exact hK.bind (closed_judgeFields fs h _) fun _ _ => hK.pure _
    · exact hK.pure _
  | .refined s c, h, v => by
    rw [judge_refined]
    refine hK.bind (closed_judge s h.1 v) fun inner hinner => ?_
    cases inner with
    | ok b => exact hK.ask h.2 v b.1 b.2 hinner
    | error es => exact hK.pure _
  | .text _, _, _ | .int _, _, _ | .float _, _, _ | .bool, _, _ | .bytes, _, _ | .date, _, _
  | .datetime, _, _ | .duration, _, _ | .null, _, _ | .any, _, _ | .listed _, _, _ => by
    rw [judge_leaf rfl]
    exact hK.pure _

theorem closed_judgeOptions : ∀ ss : List Schema, EveryOf C F ss → ∀ best issues v,
    K (judgeOptions ss best issues v)
  | [], _, best, issues, v => by
    rw [judgeOptions_nil]
    exact hK.pure _
  | s :: ss, h, best, issues, v => by
    rw [judgeOptions_cons]
    refine hK.bind (closed_judge s h.1 v) fun result _ => ?_
    split
    · split
      · exact hK.pure _
      · exact closed_judgeOptions ss h.2 _ _ v
    · exact closed_judgeOptions ss h.2 _ _ v

theorem closed_judgeFields : ∀ fs : List (Head × Schema), EveryIn C F fs → ∀ entries,
    K (judgeFields fs entries)
  | [], _, entries => by
    rw [judgeFields_nil]
    exact hK.pure _
  | (head, s) :: fs, h, entries => by
    rw [judgeFields_cons]
    refine hK.bind (closed_judgeField hK (closed_judge s h.2.1) h.1 entries) fun _ _ => ?_
    exact hK.bind (closed_judgeFields fs h.2.2 entries) fun _ _ => hK.pure _

end

end

section

variable {C : Schema → Refinement → Prop} {F : Callable → Prop}

theorem every_orNull {s : Schema} (h : s.Every C F) : s.orNull.Every C F := by
  cases s <;> exact h

theorem every_refinedBy {s : Schema} (h : s.Every C F) {checks : List Refinement}
    (hc : ∀ before c after, checks = before ++ c :: after → C (s.refinedBy before) c) :
    (s.refinedBy checks).Every C F := by
  induction checks generalizing s with
  | nil => exact h
  | cons c cs ih =>
    have hs : (Schema.refined s c).Every C F := ⟨h, hc [] c cs rfl⟩
    exact ih hs fun before d after hsplit => hc (c :: before) d after (by rw [hsplit]; rfl)

theorem everyOf_iff {ss : List Schema} : EveryOf C F ss ↔ ∀ s ∈ ss, s.Every C F := by
  induction ss with
  | nil => simp [EveryOf]
  | cons s ss ih => rw [EveryOf, ih, List.forall_mem_cons]

theorem every_spread {s : Schema} (h : s.Every C F) : ∀ t ∈ s.spread.1, t.Every C F := by
  have hself {s : Schema} (h : s.Every C F) : ∀ t ∈ [s], t.Every C F := by
    intro t ht
    exact List.mem_singleton.mp ht ▸ h
  cases s with
  | nullable s =>
    cases s with
    | union ss => exact everyOf_iff.mp h
    | _ => exact hself h
  | union ss => exact everyOf_iff.mp h
  | null => rintro t ⟨⟩
  | _ => exact hself h

theorem every_oneOf {ss : List Schema} (h : ∀ s ∈ ss, s.Every C F) :
    (Schema.oneOf ss).Every C F := by
  have hd : ∀ t ∈ Schema.distinct [] (ss.flatMap (·.spread.1)), t.Every C F := by
    intro t ht
    obtain ⟨s, hs, hts⟩ := List.mem_flatMap.mp (mem_of_mem_distinct ht)
    exact every_spread (h s hs) t hts
  rw [Schema.oneOf]
  generalize Schema.distinct [] (ss.flatMap (·.spread.1)) = options at hd ⊢
  rcases options with _ | ⟨s, _ | ⟨t, rest⟩⟩
  · split
    · exact every_orNull (s := .null) trivial
    · trivial
  · have hs : s.Every C F := hd s List.mem_cons_self
    split
    · exact every_orNull hs
    · exact hs
  · have hu : (Schema.union (s :: t :: rest)).Every C F := everyOf_iff.mpr hd
    split
    · exact every_orNull hu
    · exact hu

theorem every_scalarSchema? {scalar : Scalar} {s : Schema} (h : scalarSchema? scalar = some s) :
    s.Every C F := by
  cases scalar with
  | string r => obtain rfl | rfl | rfl | rfl := stringSchema?_eq_some h <;> trivial
  | enum values | literal values =>
    obtain ⟨-, rfl⟩ := listedSchema?_eq_some.mp h
    trivial
  | number r =>
    rw [scalarSchema?, numberSchema?] at h
    split at h
    · obtain ⟨l, -, rfl⟩ := Option.map_eq_some_iff.mp h
      trivial
    · obtain ⟨l, -, rfl⟩ := Option.map_eq_some_iff.mp h
      trivial
  | _ =>
    cases h
    trivial

theorem every_absence {r : Rule} (h : ∀ f ∈ r.ownFactory?, F f) : (absence r).Every F := by
  rw [absence_eq]
  rw [Rule.ownFactory?] at h
  cases hs : r.source? with
  | none =>
    dsimp only
    cases mayBeAbsent r <;> trivial
  | some source =>
    rw [hs] at h
    cases source with
    | value v => trivial
    | factory f => exact h f rfl

/-- A refinement of a rule, and what the rule accepts before it asks about it. -/
def Asks (q : Rule) (base : Schema) (c : Refinement) : Prop :=
  ∃ name before after, q.checks = before ++ c :: after ∧
    schema? name (q.withChecks before) = some base

theorem Asks.mem_everyCheck {r q : Rule} {base : Schema} {c : Refinement} (h : Asks q base c)
    (hq : q ∈ r.everyNode) : c ∈ r.everyCheck := by
  obtain ⟨name, before, after, hsplit, -⟩ := h
  exact Rule.checks_subset_everyCheck r q hq (by simp [hsplit])

theorem every_of_withChecks {name : String} {r : Rule} {s : Schema} (hs : schema? name r = some s)
    (h : ∀ t, schema? name (r.withChecks []) = some t → t.Every C F)
    (hc : ∀ base c, Asks r base c → C base c) : s.Every C F := by
  rw [schema?_withChecks] at hs
  obtain ⟨t, ht, rfl⟩ := Option.map_eq_some_iff.mp hs
  refine every_refinedBy (h t ht) fun before c after hsplit =>
    hc _ c ⟨name, before, after, hsplit, ?_⟩
  rw [schema?_withChecks, Rule.withChecks_withChecks, ht, Rule.checks_withChecks, Option.map_some]

mutual

/-- The conditions of what a rule accepts are its own, and the functions are those of the fields
below it. -/
theorem every_schema? : ∀ (name : String) (r : Rule) {s : Schema},
    (∀ q ∈ r.everyNode, ∀ base c, Asks q base c → C base c) →
    (∀ f ∈ r.fieldFactories, F f) → schema? name r = some s → s.Every C F
  | name, .layer cs l r, s, hc, hf, h => by
    rw [Rule.everyNode, List.forall_mem_cons] at hc
    refine every_of_withChecks h (fun t ht => ?_) hc.1
    rw [Rule.withChecks, schema?_layer] at ht
    obtain ⟨u, hu, rfl⟩ := Option.map_eq_some_iff.mp ht
    have hbelow : u.Every C F := every_schema? name r hc.2 hf hu
    rw [Schema.refinedBy, List.foldl_nil]
    split
    · exact every_orNull hbelow
    · exact hbelow
  | name, .scalar cs scalar, s, hc, hf, h => by
    rw [Rule.everyNode, List.forall_mem_singleton] at hc
    refine every_of_withChecks h (fun t ht => ?_) hc
    rw [Rule.withChecks, schema?] at ht
    obtain ⟨u, hu, rfl⟩ := Option.map_eq_some_iff.mp ht
    exact every_scalarSchema? hu
  | name, .union cs rs, s, hc, hf, h => by
    rw [Rule.everyNode, List.forall_mem_cons] at hc
    refine every_of_withChecks h (fun t ht => ?_) hc.1
    rw [Rule.withChecks, schema?] at ht
    obtain ⟨ss, hss, rfl⟩ := Option.map_eq_some_iff.mp ht
    exact every_oneOf (every_schemas? name rs hc.2 hf hss)
  | name, .array cs r, s, hc, hf, h => by
    rw [Rule.everyNode, List.forall_mem_cons] at hc
    refine every_of_withChecks h (fun t ht => ?_) hc.1
    rw [Rule.withChecks, schema?] at ht
    obtain ⟨u, hu, rfl⟩ := Option.map_eq_some_iff.mp ht
    have hitems : u.Every C F := every_schema? (name ++ "Item") r hc.2 hf hu
    exact hitems
  | name, .object cs shape, s, hc, hf, h => by
    rw [Rule.everyNode, List.forall_mem_cons] at hc
    refine every_of_withChecks h (fun t ht => ?_) hc.1
    rw [Rule.withChecks, schema?] at ht
    obtain ⟨fs, hfs, rfl⟩ := Option.map_eq_some_iff.mp ht
    have hfields : EveryIn C F fs := every_fields? name shape _ hc.2 hf hfs
    exact hfields

theorem every_schemas? : ∀ (name : String) (rs : List Rule) {ss : List Schema},
    (∀ q ∈ Rule.everyNodeOf rs, ∀ base c, Asks q base c → C base c) →
    (∀ f ∈ Rule.fieldFactoriesOf rs, F f) →
    schemas? name rs = some ss → ∀ s ∈ ss, s.Every C F
  | name, [], ss, _, _, h => by
    cases h
    rintro s ⟨⟩
  | name, r :: rs, ss, hc, hf, h => by
    rw [Rule.everyNodeOf, List.forall_mem_append] at hc
    rw [Rule.fieldFactoriesOf, List.forall_mem_append] at hf
    rw [schemas?] at h
    split at h
    · rename_i t ts ht hts
      cases h
      exact List.forall_mem_cons.mpr
        ⟨every_schema? name r hc.1 hf.1 ht, every_schemas? name rs hc.2 hf.2 hts⟩
    · cases h

theorem every_fields? : ∀ (model : String) (shape : List (String × Rule)) (names : List FieldName)
    {fs : List (Head × Schema)},
    (∀ q ∈ Rule.everyNodeIn shape, ∀ base c, Asks q base c → C base c) →
    (∀ f ∈ Rule.fieldFactoriesIn shape, F f) → fields? model shape names = some fs →
    EveryIn C F fs
  | model, [], names, fs, _, _, h => by
    rw [fields?] at h
    · cases h
      trivial
    · rintro c r cs n ns ⟨⟩
  | model, (column, r) :: rest, names, fs, hc, hf, h => by
    rw [Rule.everyNodeIn, List.forall_mem_append] at hc
    rw [Rule.fieldFactoriesIn, List.forall_mem_append, List.forall_mem_append] at hf
    obtain ⟨⟨hown, hfields⟩, hrest⟩ := hf
    cases names with
    | nil =>
      rw [fields?] at h
      · cases h
        trivial
      · rintro c s cs n ns - ⟨⟩
    | cons n ns =>
      rw [fields?] at h
      split at h
      · rename_i s gs hs hgs
        cases h
        exact ⟨every_absence fun f hf => hown f (Option.mem_toList.mpr hf),
          every_schema? (model ++ pascal column) r hc.1 hfields hs,
          every_fields? model rest ns hc.2 hrest hgs⟩
      · cases h

end

end

end Row

end Tablewright
