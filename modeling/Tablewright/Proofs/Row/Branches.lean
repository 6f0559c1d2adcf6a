import Tablewright.Proofs.Row.Layered
import Tablewright.Proofs.Row.Options
import Tablewright.Proofs.Row.Same

namespace Tablewright

namespace Rule

/-- The options of a rule that is a union, when neither the union nor the layers around it have
refinements. -/
def choices? : Rule → Option (List Rule)
  | .layer [] _ r => r.choices?
  | .union [] rs => some rs
  | _ => none

/-- What a rule offers to a union that it is an option of: itself, or what its own options offer. -/
inductive Offers : Rule → Rule → Prop
  | self (r : Rule) : Offers r r
  | option {r o q : Rule} {rs : List Rule} (hr : r.choices? = some rs) (ho : o ∈ rs)
    (h : Offers o q) : Offers r q

/-- A rule makes one value of another one, whatever has been called before. -/
def Accepts (name : String) (r : Rule) (v w : Value) : Prop :=
  ∃ s fit, Row.schema? name r = some s ∧ (Row.judge s v).Gives (.ok (w, fit))

/-- A rule has complaints about a value, whatever has been called before. -/
def Rejects (name : String) (r : Rule) (v : Value) : Prop :=
  ∃ s es, Row.schema? name r = some s ∧ (Row.judge s v).Gives (.error es)

/-- A rule comes to an end about a value: no condition that is asked on the way raises anything but
complaints about what it is asked about. -/
def Settles (name : String) (r : Rule) (v : Value) : Prop :=
  (∃ w, r.Accepts name v w) ∨ r.Rejects name v

end Rule

namespace Row

open Run (Gives Steady)

namespace Schema

theorem pairwise_distinct (seen ss : List Schema) :
    (distinct seen ss).Pairwise (fun s t => ¬s.same t = true) ∧
      ∀ t ∈ distinct seen ss, ∀ u ∈ seen, ¬u.same t = true := by
  induction ss generalizing seen with
  | nil => exact ⟨.nil, by rintro t ⟨⟩⟩
  | cons s ss ih =>
    rw [distinct]
    split
    · exact ih seen
    · rename_i hseen
      rw [List.any_eq_true, not_exists] at hseen
      obtain ⟨hpair, hnew⟩ := ih (s :: seen)
      refine ⟨List.pairwise_cons.mpr ⟨fun t ht => hnew t ht s List.mem_cons_self, hpair⟩, ?_⟩
      intro t ht u hu
      obtain rfl | ht := List.mem_cons.mp ht
      · exact fun h => hseen u ⟨hu, h⟩
      · exact hnew t ht u (List.mem_cons_of_mem s hu)

theorem Apart.orNull {s : Schema} (h : s.Apart) : s.orNull.Apart := by
  cases s <;> exact h

theorem Apart.refinedBy {s : Schema} (h : s.Apart) (checks : List Refinement) :
    (s.refinedBy checks).Apart := by
  rw [Schema.refinedBy]
  induction checks generalizing s with
  | nil => exact h
  | cons c cs ih => exact ih (s := .refined s c) trivial

theorem Apart.spread {s : Schema} (h : s.Apart) : ∀ t ∈ s.spread.1, t.Apart := by
  have hself {s : Schema} (h : s.Apart) : ∀ t ∈ [s], t.Apart := by
    intro t ht
    exact List.mem_singleton.mp ht ▸ h
  cases s with
  | nullable s =>
    cases s with
    | union ss => exact apartOf_iff.mp h.2
    | _ => exact hself h
  | union ss => exact apartOf_iff.mp h.2
  | null => rintro t ⟨⟩
  | _ => exact hself h

theorem apart_distinct {ss : List Schema} (h : ∀ s ∈ ss, s.Apart) :
    ∀ o ∈ distinct [] (ss.flatMap (·.spread.1)), o.Apart := by
  intro o ho
  obtain ⟨s, hs, hmem⟩ := List.mem_flatMap.mp (mem_of_mem_distinct ho)
  exact (h s hs).spread o hmem

theorem apart_oneOf {ss : List Schema} (h : ∀ s ∈ ss, s.Apart) : (oneOf ss).Apart := by
  have hif {s : Schema} (hs : s.Apart) (c : Prop) [Decidable c] :
      Apart (if c then s.orNull else s) := by
    split
    · exact hs.orNull
    · exact hs
  have hd := apart_distinct h
  have hp := (pairwise_distinct [] (ss.flatMap (·.spread.1))).1
  rw [oneOf]
  refine hif ?_ _
  generalize distinct [] (ss.flatMap (·.spread.1)) = options at hd hp
  rcases options with _ | ⟨o, _ | ⟨p, rest⟩⟩
  · trivial
  · exact hd o List.mem_cons_self
  · exact ⟨hp, apartOf_iff.mpr hd⟩

end Schema

theorem apart_leaf {s : Schema} (h : s.isLeaf = true) : s.Apart := by
  cases s <;> trivial

mutual

theorem apart_schema? : ∀ (name : String) (r : Rule) {s : Schema},
    schema? name r = some s → s.Apart
  | name, .layer cs l r, s, h => by
    rw [schema?_layer] at h
    obtain ⟨t, ht, rfl⟩ := Option.map_eq_some_iff.mp h
    have hapart := apart_schema? name r ht
    refine Schema.Apart.refinedBy ?_ cs
    split
    · exact hapart.orNull
    · exact hapart
  | _, .scalar cs v, s, h => by
    rw [schema?] at h
    obtain ⟨t, ht, rfl⟩ := Option.map_eq_some_iff.mp h
    exact (apart_leaf (isLeaf_scalarSchema? ht)).refinedBy cs
  | name, .union cs rs, s, h => by
    rw [schema?] at h
    obtain ⟨ss, hss, rfl⟩ := Option.map_eq_some_iff.mp h
    exact (Schema.apart_oneOf (apart_schemas? name rs hss)).refinedBy cs
  | name, .array cs r, s, h => by
    rw [schema?] at h
    obtain ⟨t, ht, rfl⟩ := Option.map_eq_some_iff.mp h
    have hitem : t.Apart := apart_schema? (name ++ "Item") r ht
    have hlist : (Schema.list t).Apart := hitem
    exact hlist.refinedBy cs
  | name, .object cs shape, s, h => by
    rw [schema?] at h
    obtain ⟨fs, -, rfl⟩ := Option.map_eq_some_iff.mp h
    have hobject : (Schema.object name fs).Apart := trivial
    exact hobject.refinedBy cs

theorem apart_schemas? : ∀ (name : String) (rs : List Rule) {ss : List Schema},
    schemas? name rs = some ss → ∀ s ∈ ss, s.Apart
  | _, [], ss, h => by
    cases h
    rintro s ⟨⟩
  | name, r :: rs, ss, h => by
    rw [schemas?] at h
    split at h
    · rename_i s ts hs hts
      cases h
      exact List.forall_mem_cons.mpr ⟨apart_schema? name r hs, apart_schemas? name rs hts⟩
    · cases h

end

theorem exists_mem_rules {name : String} {rs : List Rule} {ss : List Schema}
    (h : schemas? name rs = some ss) {s : Schema} (hs : s ∈ ss) :
    ∃ r ∈ rs, schema? name r = some s := by
  induction rs generalizing ss with
  | nil =>
    cases h
    cases hs
  | cons r rs ih =>
    rw [schemas?] at h
    split at h
    · rename_i t ts ht hts
      cases h
      obtain rfl | hs := List.mem_cons.mp hs
      · exact ⟨r, List.mem_cons_self, ht⟩
      · obtain ⟨q, hq, hsq⟩ := ih hts hs
        exact ⟨q, List.mem_cons_of_mem r hq, hsq⟩
    · cases h

theorem exists_mem_schemas {name : String} {rs : List Rule} {ss : List Schema}
    (h : schemas? name rs = some ss) {r : Rule} (hr : r ∈ rs) :
    ∃ s ∈ ss, schema? name r = some s := by
  induction rs generalizing ss with
  | nil => cases hr
  | cons q rs ih =>
    rw [schemas?] at h
    split at h
    · rename_i t ts ht hts
      cases h
      obtain rfl | hr := List.mem_cons.mp hr
      · exact ⟨t, List.mem_cons_self, ht⟩
      · obtain ⟨s, hs, hsr⟩ := ih hts hr
        exact ⟨s, List.mem_cons_of_mem t hs, hsr⟩
    · cases h

theorem spread_of_isPlain {s : Schema} (h : s.isPlain = true) : s.spread = ([s], false) := by
  cases s <;> first | rfl | cases h

theorem spread_orNull {s : Schema} : s.orNull.spread = (s.spread.1, true) := by
  cases s with
  | nullable t => cases t <;> rfl
  | _ => rfl

/-- One schema for several has their options, each once, and null when one of them brings it. -/
theorem spread_oneOf {ss : List Schema} (h : ∀ s ∈ ss, Spreads s) (hne : ss ≠ []) :
    (Schema.oneOf ss).spread =
      (Schema.distinct [] (ss.flatMap (·.spread.1)), ss.any (·.spread.2)) := by
  have hplain : ∀ o ∈ Schema.distinct [] (ss.flatMap (·.spread.1)), o.isPlain = true := by
    intro o ho
    obtain ⟨s, hs, hmem⟩ := List.mem_flatMap.mp (mem_of_mem_distinct ho)
    exact (h s hs).plain o hmem
  have hif {s : Schema} {options : List Schema} (hs : s.spread = (options, false)) (b : Bool) :
      (if b = true then s.orNull else s).spread = (options, b) := by
    cases b with
    | true => rw [if_pos rfl, spread_orNull, hs]
    | false => rw [if_neg Bool.false_ne_true, hs]
  rw [Schema.oneOf]
  cases hd : Schema.distinct [] (ss.flatMap (·.spread.1)) with
  | nil =>
    have hany : ss.any (·.spread.2) = true := by
      rw [List.any_eq_true]
      exact Classical.byContradiction fun hnone => hne (eq_nil_of_distinct h hd hnone)
    rw [hany, if_pos rfl]
    rfl
  | cons o rest =>
    rw [hd] at hplain
    cases rest with
    | nil => exact hif (spread_of_isPlain (hplain o List.mem_cons_self)) _
    | cons p rest => exact hif rfl _

theorem gives_null {s : Schema} {v : Value} (h : s.spread.2 = true) (hv : v.isNull = true) :
    (judge s v).Gives (.ok (.null, .exact)) := by
  cases s with
  | null =>
    rw [judge_leaf rfl, judgeLeaf, if_pos hv]
    exact Run.gives_pure _
  | nullable =>
    rw [judge_nullable, if_pos hv]
    exact Run.gives_pure _
  | _ => cases h

theorem judge_spread {s : Schema} {v : Value} (hn : s.spread.2 = true → v.isNull = false) :
    s = .null ∨ (∃ o, s.spread.1 = [o] ∧ judge s v = judge o v) ∨
      judge s v = judge (.union s.spread.1) v := by
  cases s with
  | null => exact .inl rfl
  | nullable t =>
    have hv : v.isNull = false := hn (by cases t <;> rfl)
    rw [judge_nullable, hv, if_neg Bool.false_ne_true]
    cases t with
    | union ss => exact .inr (.inr rfl)
    | _ => exact .inr (.inl ⟨_, rfl, rfl⟩)
  | union ss => exact .inr (.inr rfl)
  | _ => exact .inr (.inl ⟨_, rfl, rfl⟩)

theorem judge_null_of_not {v : Value} (hv : v.isNull = false) :
    (judge .null v).Gives (reject .notNull) := by
  rw [judge_leaf rfl, judgeLeaf, hv]
  exact Run.gives_pure _

theorem ends_spread {s : Schema} {v : Value} (hs : s.Sourceless)
    (hn : s.spread.2 = true → v.isNull = false) (h : (judge s v).Steady) : Ends v s.spread.1 := by
  obtain rfl | ⟨o, ho, hjudge⟩ | hjudge := judge_spread hn
  · exact .nil
  · rw [ho]
    rw [hjudge] at h
    obtain ⟨j, hj⟩ := h
    exact .next hj .nil
  · rw [hjudge, judge_union] at h
    exact ends_of_judgeOptions (everyOf_iff.mpr (every_spread hs)) h

section

variable {s : Schema} {v : Value} (hn : s.spread.2 = true → v.isNull = false)
  (h : Ends v s.spread.1)

include hn h

theorem steady_of_ends : (judge s v).Steady := by
  obtain rfl | ⟨o, ho, hjudge⟩ | hjudge := judge_spread hn
  · exact ⟨_, judge_null_of_not (hn rfl)⟩
  · rw [hjudge]
    rw [ho] at h
    cases h with
    | decided hj => exact ⟨_, hj⟩
    | next hj => exact ⟨_, hj⟩
  · rw [hjudge]
    exact h.steady

theorem gives_spread {b : Value × Fit} (hb : (judge s v).Gives (.ok b)) :
    ∃ o ∈ s.spread.1, (judge o v).Gives (.ok b) := by
  obtain rfl | ⟨o, ho, hjudge⟩ | hjudge := judge_spread hn
  · cases hb.unique (judge_null_of_not (hn rfl))
  · rw [ho]
    exact ⟨o, List.mem_singleton_self o, hjudge ▸ hb⟩
  · exact h.gives_union (hjudge ▸ hb)

theorem takes_spread (sure : Bool) : s.Takes sure v ↔ ∃ o ∈ s.spread.1, o.Takes sure v := by
  obtain rfl | ⟨o, ho, hjudge⟩ | hjudge := judge_spread hn
  · rw [takes_iff_of_gives (judge_null_of_not (hn rfl))]
    exact iff_of_false Bool.false_ne_true (by rintro ⟨o, ⟨⟩, -⟩)
  · rw [ho, Schema.Takes, hjudge]
    simp [Schema.Takes]
  · rw [Schema.Takes, hjudge]
    exact h.takes_union sure

end

/-- Options that are left out change nothing about coming to an end: the option that one is like
is judged before it, and decides about a value when it does. -/
theorem ends_distinct {ss seen : List Schema} {v : Value} (h : Ends v ss)
    (ha : ∀ s ∈ ss ++ seen, s.Apart) (hseen : ∀ u ∈ seen, ¬ u.Takes true v) :
    Ends v (Schema.distinct seen ss) := by
  induction h generalizing seen with
  | nil => exact .nil
  | @decided s ss b hj hd =>
    rw [Schema.distinct]
    split
    · rename_i hany
      obtain ⟨u, hu, hsame⟩ := List.any_eq_true.mp hany
      have hs : s.Takes true v := ⟨_, hj, hd⟩
      have halike := takesAlike_of_same s (ha u (List.mem_append_right _ hu)) hsame
      exact absurd ((halike.takes true v).mp hs) (hseen u hu)
    · exact .decided hj hd
  | @next s ss j hj _ ih =>
    rw [List.cons_append, List.forall_mem_cons] at ha
    rw [Schema.distinct]
    split
    · exact ih ha.2 hseen
    · by_cases hs : s.Takes true v
      · obtain ⟨k, hk, hd⟩ := hs
        cases k with
        | ok b => exact .decided hk hd
        | error es => cases hd
      · refine .next hj (ih ?_ (List.forall_mem_cons.mpr ⟨hs, hseen⟩))
        intro t ht
        obtain ht | ht := List.mem_append.mp ht
        · exact ha.2 t (List.mem_append_left _ ht)
        · obtain rfl | ht := List.mem_cons.mp ht
          · exact ha.1
          · exact ha.2 t (List.mem_append_right _ ht)

theorem isPlain_refinedBy (s : Schema) (c : Refinement) (cs : List Refinement) :
    (s.refinedBy (c :: cs)).isPlain = true := by
  induction cs generalizing s c with
  | nil => rfl
  | cons d cs ih => exact ih (.refined s c) d

theorem isPlain_of_checks {name : String} {r : Rule} {s : Schema} (h : schema? name r = some s)
    (hc : r.checks ≠ []) : s.isPlain = true := by
  rw [schema?_withChecks] at h
  obtain ⟨t, -, rfl⟩ := Option.map_eq_some_iff.mp h
  obtain ⟨c, cs, hcs⟩ := List.exists_cons_of_ne_nil hc
  rw [hcs]
  exact isPlain_refinedBy t c cs

theorem exists_offered_of_plain {name : String} {r : Rule} {s o : Schema} {v : Value}
    (hs : schema? name r = some s) (hp : s.isPlain = true) (ho : o ∈ s.spread.1) :
    ∃ q t, r.Offers q ∧ schema? name q = some t ∧ judge t v = judge o v := by
  rw [spread_of_isPlain hp, List.mem_singleton] at ho
  exact ⟨r, s, .self r, hs, by rw [ho]⟩

mutual

/-- Null apart, an option that a rule brings into a union judges like a rule that it offers. -/
theorem exists_offered : ∀ (name : String) (r : Rule) {s o : Schema} {v : Value},
    schema? name r = some s → o ∈ s.spread.1 → (s.spread.2 = true → v.isNull = false) →
    ∃ q t, r.Offers q ∧ schema? name q = some t ∧ judge t v = judge o v
  | name, .layer [] l r, s, o, v, h, ho, hn => by
    have hlayer := h
    rw [schema?_layer] at hlayer
    obtain ⟨t, ht, rfl⟩ := Option.map_eq_some_iff.mp hlayer
    -- The layer brings what its rule brings, and judges alike what is not null.
    have hbelow : o ∈ t.spread.1 ∧ (t.spread.2 = true → v.isNull = false) ∧
        judge (if Rule.admitsNull l then t.orNull else t) v = judge t v := by
      rw [Schema.refinedBy, List.foldl_nil] at ho hn
      cases hl : Rule.admitsNull l with
      | true =>
        rw [hl, if_pos rfl, spread_orNull] at ho hn
        exact ⟨ho, fun _ => hn rfl, judge_orNull t (hn rfl)⟩
      | false =>
        rw [hl, if_neg Bool.false_ne_true] at ho hn
        exact ⟨ho, hn, rfl⟩
    obtain ⟨hot, hnt, hjudge⟩ := hbelow
    obtain ⟨q, u, hq, hu, hqo⟩ := exists_offered name r ht hot hnt
    cases hq with
    | self =>
      cases ht.symm.trans hu
      exact ⟨_, _, .self _, h, hjudge.trans hqo⟩
    | option hr hmem hq => exact ⟨q, u, .option hr hmem hq, hu, hqo⟩
  | name, .union [] rs, s, o, v, h, ho, hn => by
    rw [schema?] at h
    obtain ⟨ss, hss, rfl⟩ := Option.map_eq_some_iff.mp h
    have hne : ss ≠ [] := by
      rintro rfl
      cases ho
    rw [Schema.refinedBy, List.foldl_nil, spread_oneOf (spreads_schemas? name rs hss) hne] at ho hn
    obtain ⟨t, ht, hot⟩ := List.mem_flatMap.mp (mem_of_mem_distinct ho)
    obtain ⟨r, hr, -, q, u, hq, hu, hqo⟩ := exists_offeredOf name rs hss t ht hot fun hnull =>
      hn (List.any_eq_true.mpr ⟨t, ht, hnull⟩)
    exact ⟨q, u, .option rfl hr hq, hu, hqo⟩
  | name, .scalar [] x, s, o, v, h, ho, _ => by
    have hscalar := h
    rw [schema?] at hscalar
    obtain ⟨t, ht, rfl⟩ := Option.map_eq_some_iff.mp hscalar
    have hleaf := isLeaf_scalarSchema? ht
    rw [Schema.refinedBy, List.foldl_nil] at h ho
    cases t with
    | null => cases ho
    | nullable | union | list | object | refined => cases hleaf
    | _ => exact exists_offered_of_plain h rfl ho
  | name, .array [] r, s, o, v, h, ho, _ => by
    have harray := h
    rw [schema?] at harray
    obtain ⟨t, -, rfl⟩ := Option.map_eq_some_iff.mp harray
    exact exists_offered_of_plain h rfl ho
  | name, .object [] shape, s, o, v, h, ho, _ => by
    have hobject := h
    rw [schema?] at hobject
    obtain ⟨t, -, rfl⟩ := Option.map_eq_some_iff.mp hobject
    exact exists_offered_of_plain h rfl ho
  | name, .layer (c :: cs) _ _, s, o, v, h, ho, _ | name, .scalar (c :: cs) _, s, o, v, h, ho, _
  | name, .union (c :: cs) _, s, o, v, h, ho, _ | name, .array (c :: cs) _, s, o, v, h, ho, _
  | name, .object (c :: cs) _, s, o, v, h, ho, _ =>
    exists_offered_of_plain h (isPlain_of_checks h (List.cons_ne_nil c cs)) ho

theorem exists_offeredOf : ∀ (name : String) (rs : List Rule) {ss : List Schema},
    schemas? name rs = some ss → ∀ s ∈ ss, ∀ {o : Schema} {v : Value}, o ∈ s.spread.1 →
    (s.spread.2 = true → v.isNull = false) →
    ∃ r ∈ rs, schema? name r = some s ∧
      ∃ q t, r.Offers q ∧ schema? name q = some t ∧ judge t v = judge o v
  | _, [], _, h, s, hs, _, _, _, _ => by
    cases h
    cases hs
  | name, r :: rs, ss, h, s, hs, o, v, ho, hn => by
    rw [schemas?] at h
    split at h
    · rename_i t ts ht hts
      cases h
      obtain heq | hs := List.mem_cons.mp hs
      · rw [heq] at ho hn ⊢
        exact ⟨r, List.mem_cons_self, ht, exists_offered name r ht ho hn⟩
      · obtain ⟨q, hq, hrest⟩ := exists_offeredOf name rs hts s hs ho hn
        exact ⟨q, List.mem_cons_of_mem r hq, hrest⟩
    · cases h

end

section

variable {ss : List Schema} {v : Value} (hf : ∀ s ∈ ss, s.Sourceless) (ha : ∀ s ∈ ss, s.Apart)
  (h : ∀ s ∈ ss, Spreads s) (hne : ss ≠ []) (hn : ss.any (·.spread.2) = true → v.isNull = false)
  (hs : ∀ s ∈ ss, (judge s v).Steady)

include hf ha h hne hn hs

theorem ends_oneOf : Ends v (Schema.oneOf ss).spread.1 := by
  have hflat : Ends v (ss.flatMap (·.spread.1)) := by
    clear ha h hne
    induction ss with
    | nil => exact .nil
    | cons s ss ih =>
      rw [List.any_cons, Bool.or_eq_true] at hn
      rw [List.forall_mem_cons] at hf hs
      rw [List.flatMap_cons]
      exact (ends_spread hf.1 (fun hnull => hn (.inl hnull)) hs.1).append
        (ih hf.2 (fun hnull => hn (.inr hnull)) hs.2)
  rw [spread_oneOf h hne]
  refine ends_distinct hflat ?_ (by rintro u ⟨⟩)
  rw [List.append_nil]
  intro o ho
  obtain ⟨s, hm, hos⟩ := List.mem_flatMap.mp ho
  exact (ha s hm).spread o hos

/-- Null apart, one schema for several accepts what one of them accepts: an option that is left out
accepts no more than the one it is like. -/
theorem takes_oneOf (sure : Bool) :
    (Schema.oneOf ss).Takes sure v ↔ ∃ s ∈ ss, s.Takes sure v := by
  have hspread := spread_oneOf h hne
  have hends := ends_oneOf hf ha h hne hn hs
  have hwhole := takes_spread (by rw [hspread]; exact hn) hends sure
  have hparts : ∀ s ∈ ss, s.Takes sure v ↔ ∃ o ∈ s.spread.1, o.Takes sure v := fun s hm =>
    have hnull : s.spread.2 = true → v.isNull = false := fun hnull =>
      hn (List.any_eq_true.mpr ⟨s, hm, hnull⟩)
    takes_spread hnull (ends_spread (hf s hm) hnull (hs s hm)) sure
  rw [hwhole, hspread]
  constructor
  · rintro ⟨o, ho, htakes⟩
    obtain ⟨s, hm, hos⟩ := List.mem_flatMap.mp (mem_of_mem_distinct ho)
    exact ⟨s, hm, (hparts s hm).mpr ⟨o, hos, htakes⟩⟩
  · rintro ⟨s, hm, htakes⟩
    obtain ⟨o, ho, htakes⟩ := (hparts s hm).mp htakes
    have hmem : o ∈ ss.flatMap (·.spread.1) := List.mem_flatMap.mpr ⟨s, hm, ho⟩
    obtain ⟨t, ht, -⟩ | ⟨t, ht, hto⟩ := exists_of_mem_distinct [] hmem
    · cases ht
    · obtain rfl | hsame := hto
      · exact ⟨t, ht, htakes⟩
      · have halike := takesAlike_of_same o (Schema.apart_distinct ha t ht) hsame
        exact ⟨t, ht, (halike.takes sure v).mp htakes⟩

end

theorem accepts_iff_takes {name : String} {r : Rule} {s : Schema} (hs : schema? name r = some s)
    (v : Value) : (∃ w, r.Accepts name v w) ↔ s.Takes false v := by
  constructor
  · rintro ⟨w, t, fit, ht, hgives⟩
    cases hs.symm.trans ht
    exact ⟨.ok (w, fit), hgives, rfl⟩
  · rintro ⟨j, hgives, htaken⟩
    cases j with
    | ok b => exact ⟨b.1, s, b.2, hs, hgives⟩
    | error es => cases htaken

theorem settles_iff_steady {name : String} {r : Rule} {s : Schema} (hs : schema? name r = some s)
    (v : Value) : r.Settles name v ↔ (judge s v).Steady := by
  constructor
  · rintro (⟨w, t, fit, ht, hgives⟩ | ⟨t, es, ht, hgives⟩)
    · cases hs.symm.trans ht
      exact ⟨_, hgives⟩
    · cases hs.symm.trans ht
      exact ⟨_, hgives⟩
  · rintro ⟨j, hgives⟩
    cases j with
    | ok b => exact .inl ⟨b.1, s, b.2, hs, hgives⟩
    | error es => exact .inr ⟨s, es, hs, hgives⟩

theorem exists_accepts_iff {name : String} {rs : List Rule} {ss : List Schema}
    (h : schemas? name rs = some ss) (v : Value) :
    (∃ r ∈ rs, ∃ w, r.Accepts name v w) ↔ ∃ s ∈ ss, s.Takes false v := by
  constructor
  · rintro ⟨r, hr, haccepts⟩
    obtain ⟨s, hs, hrs⟩ := exists_mem_schemas h hr
    exact ⟨s, hs, (accepts_iff_takes hrs v).mp haccepts⟩
  · rintro ⟨s, hs, htakes⟩
    obtain ⟨r, hr, hrs⟩ := exists_mem_rules h hs
    exact ⟨r, hr, (accepts_iff_takes hrs v).mpr htakes⟩

theorem sourceless_schemas? {name : String} {rs : List Rule} {ss : List Schema}
    (h : schemas? name rs = some ss) (hf : Rule.everyFactoryOf rs = []) :
    ∀ s ∈ ss, s.Sourceless := by
  have hnone : ∀ f ∈ Rule.fieldFactoriesOf rs, False := by
    intro f hmem
    have hmem := Rule.fieldFactories_subset (.union [] rs) hmem
    rw [Rule.everyFactory, hf] at hmem
    cases hmem
  exact every_schemas? name rs (fun _ _ _ _ _ => trivial) hnone h

/-- A union of rules that come to an end about a value accepts it when one of its options does, and
makes of it what is made of it by a rule that one of these options offers. -/
theorem accepts_union {name : String} {rs : List Rule} {s : Schema} (hne : rs ≠ [])
    (hs : schema? name (.union [] rs) = some s) (hf : Rule.everyFactoryOf rs = []) {v : Value}
    (hv : ∀ r ∈ rs, r.Settles name v) :
    (Rule.union [] rs).Settles name v ∧
    ((∃ w, (Rule.union [] rs).Accepts name v w) ↔ ∃ r ∈ rs, ∃ w, r.Accepts name v w) ∧
    ∀ w, (Rule.union [] rs).Accepts name v w →
      ∃ r ∈ rs, (∃ x, r.Accepts name v x) ∧ ∃ q, r.Offers q ∧ q.Accepts name v w := by
  have hunion := hs
  rw [schema?] at hunion
  obtain ⟨ss, hss, rfl⟩ := Option.map_eq_some_iff.mp hunion
  rw [Schema.refinedBy, List.foldl_nil] at hs
  have hsource := sourceless_schemas? hss hf
  have hapart := apart_schemas? name rs hss
  have hspreads := spreads_schemas? name rs hss
  have hsteady : ∀ t ∈ ss, (judge t v).Steady := fun t ht => by
    obtain ⟨r, hr, hrt⟩ := exists_mem_rules hss ht
    exact (settles_iff_steady hrt v).mp (hv r hr)
  have hsome : ss ≠ [] := by
    obtain ⟨r, hr⟩ := List.exists_mem_of_ne_nil rs hne
    obtain ⟨t, ht, -⟩ := exists_mem_schemas hss hr
    exact List.ne_nil_of_mem ht
  rw [settles_iff_steady hs, accepts_iff_takes hs, exists_accepts_iff hss]
  by_cases hnull : ss.any (·.spread.2) = true ∧ v.isNull = true
  · obtain ⟨t, ht, hbrings⟩ := List.any_eq_true.mp hnull.1
    have hwhole : (judge (Schema.oneOf ss) v).Gives (.ok (.null, .exact)) := by
      refine gives_null ?_ hnull.2
      rw [spread_oneOf hspreads hsome]
      exact hnull.1
    have hpart := gives_null hbrings hnull.2
    refine ⟨⟨_, hwhole⟩, iff_of_true ⟨_, hwhole, rfl⟩ ⟨t, ht, _, hpart, rfl⟩, ?_⟩
    rintro w ⟨u, fit, hu, hgives⟩
    cases hs.symm.trans hu
    cases hgives.unique hwhole
    obtain ⟨r, hr, hrt⟩ := exists_mem_rules hss ht
    have haccepts : r.Accepts name v .null := ⟨t, .exact, hrt, hpart⟩
    exact ⟨r, hr, ⟨_, haccepts⟩, r, .self r, haccepts⟩
  · have hn : ss.any (·.spread.2) = true → v.isNull = false := by
      intro hbrings
      rw [← Bool.not_eq_true]
      exact fun hv => hnull ⟨hbrings, hv⟩
    have hspread := spread_oneOf hspreads hsome
    have hends := ends_oneOf hsource hapart hspreads hsome hn hsteady
    have hwhole : (Schema.oneOf ss).spread.2 = true → v.isNull = false := by
      rw [hspread]
      exact hn
    refine ⟨steady_of_ends hwhole hends,
      takes_oneOf hsource hapart hspreads hsome hn hsteady false, ?_⟩
    rintro w ⟨u, fit, hu, hgives⟩
    cases hs.symm.trans hu
    obtain ⟨o, ho, hgives⟩ := gives_spread hwhole hends hgives
    rw [hspread] at ho
    obtain ⟨t, ht, hot⟩ := List.mem_flatMap.mp (mem_of_mem_distinct ho)
    have hnt : t.spread.2 = true → v.isNull = false := fun hbrings =>
      hn (List.any_eq_true.mpr ⟨t, ht, hbrings⟩)
    have htakes : t.Takes false v :=
      (takes_spread hnt (ends_spread (hsource t ht) hnt (hsteady t ht)) false).mpr
        ⟨o, hot, _, hgives, rfl⟩
    obtain ⟨r, hr, hrt, q, u, hq, hu, hqo⟩ := exists_offeredOf name rs hss t ht hot hnt
    exact ⟨r, hr, (accepts_iff_takes hrt v).mpr htakes, q, hq, u, fit, hu, hqo ▸ hgives⟩

def numbered : List Rule :=
  [.scalar [⟨Callable.even 0, "not even"⟩] .bigint,
    .layer [] .nullable (.union [] [.scalar [] .boolean, .array [] (.scalar [] .boolean)])]

theorem accepts_union_numbered :
    numbered ≠ [] ∧ Rule.everyFactoryOf numbered = [] ∧
    (∀ r ∈ numbered, r.Settles "Row" (.text "8")) ∧
    (Rule.union [] numbered).Accepts "Row" (.text "8") (.int 8) ∧
    ∃ r ∈ numbered, (∃ x, r.Accepts "Row" (.text "8") x) ∧
      ∃ q, r.Offers q ∧ q.Accepts "Row" (.text "8") (.int 8) := by
  have hsettles : ∀ r ∈ numbered, r.Settles "Row" (.text "8") := by
    intro r hr
    simp only [numbered, List.mem_cons, List.not_mem_nil, or_false] at hr
    obtain rfl | rfl := hr
    · exact .inl ⟨.int 8, _, _, rfl, fun calls => ⟨_, rfl⟩⟩
    · exact .inr ⟨_, _, rfl, fun calls => ⟨_, rfl⟩⟩
  have haccepts : (Rule.union [] numbered).Accepts "Row" (.text "8") (.int 8) :=
    ⟨_, _, rfl, fun calls => ⟨_, rfl⟩⟩
  have hne : numbered ≠ [] := by simp [numbered]
  obtain ⟨-, -, hfrom⟩ := @accepts_union "Row" numbered _ hne rfl rfl _ hsettles
  exact ⟨hne, rfl, hsettles, haccepts, hfrom _ haccepts⟩

def narrowing : List Rule :=
  [.object [] [("b", .scalar [] .any)],
    .union [] [.scalar [] .any, .object [] [("b", .object [] [("c", .scalar [] .bigint)])]]]

def fieldOnly (name column : String) (s : Schema) : Schema :=
  .object name [(⟨⟨column, none⟩, .refused⟩, s)]

def wide : Schema := fieldOnly "Row" "b" .any

def narrow : Schema := fieldOnly "Row" "b" (fieldOnly ("Row" ++ pascal "b") "c" (.int .none))

/-- Spreading a union within another one counts: together the options make something of a value
that none of them makes of it by itself. -/
theorem ne_of_accepts_narrowing :
    ∃ v w, (Rule.union [] narrowing).Accepts "Row" v w ∧
      ∀ r ∈ narrowing, ∀ x, r.Accepts "Row" v x → dumped x ≠ dumped w := by
  have hb : fieldNames ["b"] = [⟨"b", none⟩] := by decide +kernel
  have hc : fieldNames ["c"] = [⟨"c", none⟩] := by decide +kernel
  have hwide : schema? "Row" (.object [] [("b", .scalar [] .any)]) = some wide := by
    simp only [schema?, List.map_cons, List.map_nil, hb, fields?]
    rfl
  have hnarrow : schema? "Row" (.object [] [("b", .object [] [("c", .scalar [] .bigint)])]) =
      some narrow := by
    simp only [schema?, List.map_cons, List.map_nil, hb, hc, fields?]
    rfl
  have hnested : schema? "Row" (.union [] [.scalar [] .any,
      .object [] [("b", .object [] [("c", .scalar [] .bigint)])]]) =
      some (.union [.any, narrow]) := by
    rw [schema?, schemas?, schemas?, schemas?, hnarrow]
    rfl
  have hunion : schema? "Row" (.union [] narrowing) = some (.union [wide, .any, narrow]) := by
    rw [schema?, narrowing, schemas?, schemas?, schemas?, hwide, hnested]
    rfl
  have hgiven {r : Rule} {v x : Value} {s : Schema} (hs : schema? "Row" r = some s) (y : Value)
      (fit : Fit) (hy : (judge s v).Gives (.ok (y, fit))) (hx : r.Accepts "Row" v x) : x = y := by
    obtain ⟨t, other, ht, hx⟩ := hx
    cases hs.symm.trans ht
    cases hx.unique hy
    rfl
  refine ⟨.dict [(.text "b", .dict [(.text "c", .text "1")])],
    .record [("b", .record [("c", .int 1)] ["c"])] ["b"],
    ⟨_, ⟨.lax, some 2⟩, hunion, fun calls => ⟨calls, rfl⟩⟩, ?_⟩
  intro r hr x hx
  simp only [narrowing, List.mem_cons, List.not_mem_nil, or_false] at hr
  obtain rfl | rfl := hr
  · rw [hgiven hwide (.record [("b", .dict [(.text "c", .text "1")])] ["b"]) ⟨.lax, some 1⟩
      (fun calls => ⟨calls, rfl⟩) hx]
    simp [dumped, dumpedFields]
  · rw [hgiven hnested (.dict [(.text "b", .dict [(.text "c", .text "1")])]) ⟨.lax, none⟩
      (fun calls => ⟨calls, rfl⟩) hx]
    simp [dumped, dumpedFields]

end Row

end Tablewright
