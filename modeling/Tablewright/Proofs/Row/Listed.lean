import Tablewright.Proofs.Row.Layers

namespace Tablewright.Row

theorem mem_of_mem_distinctLiterals {seen vs : List Literal} {l : Literal}
    (h : l ∈ distinctLiterals seen vs) : l ∈ vs := by
  induction vs generalizing seen with
  | nil => cases h
  | cons v vs ih =>
    rw [distinctLiterals] at h
    split at h
    · exact List.mem_cons_of_mem v (ih h)
    · obtain rfl | h := List.mem_cons.mp h
      · exact List.mem_cons_self
      · exact List.mem_cons_of_mem v (ih h)

theorem eq_of_sameLiteral_text {s : String} {l : Literal}
    (h : Schema.sameLiteral (.text s) l = true) : l = .text s := by
  cases l <;> simp_all [Schema.sameLiteral]

theorem mem_distinctLiterals {l : Literal} (hl : ∀ x, Schema.sameLiteral l x = true → x = l)
    (seen : List Literal) {vs : List Literal} (h : l ∈ vs) :
    l ∈ seen ∨ l ∈ distinctLiterals seen vs := by
  induction vs generalizing seen with
  | nil => cases h
  | cons v vs ih =>
    rw [distinctLiterals]
    split
    · rename_i hseen
      obtain rfl | h := List.mem_cons.mp h
      · obtain ⟨x, hx, hs⟩ := List.any_eq_true.mp hseen
        exact .inl (hl x hs ▸ hx)
      · exact ih seen h
    · obtain rfl | h := List.mem_cons.mp h
      · exact .inr List.mem_cons_self
      · obtain hs | hd := ih (v :: seen) h
        · obtain rfl | hs := List.mem_cons.mp hs
          · exact .inr List.mem_cons_self
          · exact .inl hs
        · exact .inr (List.mem_cons_of_mem v hd)

theorem mem_of_findListed {values : List Literal} {v : Value} {l : Literal}
    (h : findListed values v = some l) : l ∈ values := by
  unfold findListed at h
  split at h
  · cases h
    exact List.mem_of_find?_eq_some (by assumption)
  · rename_i hnone
    dsimp only at h
    split at h
    · cases h
      rename_i hf
      have hm := List.mem_reverse.mp (List.mem_of_find?_eq_some hf)
      rw [List.partition_eq_filter_filter] at hm
      exact (List.mem_filter.mp hm).1
    · have hm := List.mem_reverse.mp (List.mem_of_find?_eq_some h)
      rw [List.partition_eq_filter_filter] at hm
      exact (List.mem_filter.mp hm).1

theorem mem_of_judgeListed {values : List Literal} {v w : Value} {fit : Fit}
    (h : judgeListed values v = .ok (w, fit)) : ∃ l ∈ values, w = l.toValue := by
  unfold judgeListed at h
  split at h
  · cases h
    exact ⟨_, mem_of_findListed (by assumption), rfl⟩
  · cases h

theorem denotesSame_text (s : String) (l : Literal) : denotesSame (.text s) l = false := by
  cases l <;> rfl

theorem isExactly_text {s : String} {l : Literal} : isExactly (.text s) l = true ↔ l = .text s := by
  cases l with
  | text t =>
    have hiff : s = t ↔ Literal.text t = .text s := ⟨fun h => by rw [h], fun h => by cases h; rfl⟩
    rw [isExactly, Value.isText, beq_iff_eq, hiff]
  | null | bool | int | float => exact ⟨fun h => (Bool.false_ne_true h).elim, fun h => by cases h⟩

theorem isOk_judgeListed_text (values : List Literal) (s : String) :
    (judgeListed values (.text s)).isOk = decide (.text s ∈ values) := by
  have hloose (ls : List Literal) : ls.find? (denotesSame (.text s)) = none := by
    rw [List.find?_eq_none]
    intro l _
    rw [denotesSame_text]
    exact Bool.false_ne_true
  by_cases h : .text s ∈ values
  · have hf : (values.find? (isExactly (.text s))).isSome = true :=
      List.find?_isSome.mpr ⟨_, h, isExactly_text.mpr rfl⟩
    obtain ⟨l, hl⟩ := Option.isSome_iff_exists.mp hf
    rw [judgeListed, findListed, hl, decide_eq_true h]
    rfl
  · have hf : values.find? (isExactly (.text s)) = none := by
      rw [List.find?_eq_none]
      intro l hl he
      exact h (isExactly_text.mp he ▸ hl)
    rw [judgeListed, findListed, hf, decide_eq_false h]
    dsimp only
    rw [hloose, hloose]
    rfl

theorem text_mem_distinctLiterals_words {words : List String} {s : String} :
    .text s ∈ distinctLiterals [] (words.map .text) ↔ s ∈ words := by
  constructor
  · intro h
    obtain ⟨w, hw, he⟩ := List.mem_map.mp (mem_of_mem_distinctLiterals h)
    cases he
    exact hw
  · intro h
    obtain hn | hd := mem_distinctLiterals (fun _ hs => eq_of_sameLiteral_text hs) []
      (List.mem_map.mpr ⟨s, h, rfl⟩)
    · cases hn
    · exact hd

def AllListed (values : List Literal) (ss : List Schema) : Prop :=
  ∀ s ∈ ss, ∃ vs, s = .listed vs ∧ vs ⊆ values

theorem mem_of_judge_allListed {values : List Literal} {ss : List Schema}
    (h : AllListed values ss) {s : Schema} (hs : s ∈ ss) {v w : Value} {fit : Fit}
    {calls later : Calls} (hj : judge s v calls = (.ok (.ok (w, fit)), later)) :
    ∃ l ∈ values, w = l.toValue := by
  obtain ⟨vs, rfl, hvs⟩ := h s hs
  rw [judge_leaf rfl] at hj
  injection hj with hj
  obtain ⟨l, hl, rfl⟩ := mem_of_judgeListed (Except.ok.inj hj)
  exact ⟨l, hvs hl, rfl⟩

theorem flatMap_spread {values : List Literal} {ss : List Schema} (h : AllListed values ss) :
    ss.flatMap (·.spread.1) = ss := by
  induction ss with
  | nil => rfl
  | cons s ss ih =>
    obtain ⟨vs, rfl, -⟩ := h s List.mem_cons_self
    rw [List.flatMap_cons, ih fun t ht => h t (List.mem_cons_of_mem _ ht)]
    rfl

/-- A union of listed values accepts no others; a union of nothing accepts null. -/
theorem mem_of_judge_oneOf {values : List Literal} {ss : List Schema} (h : AllListed values ss)
    {v w : Value} {fit : Fit} {calls later : Calls}
    (hj : judge (Schema.oneOf ss) v calls = (.ok (.ok (w, fit)), later)) :
    w = .null ∨ ∃ l ∈ values, w = l.toValue := by
  have hspread := flatMap_spread h
  have hnull : ss.any (·.spread.2) = false := by
    rw [List.any_eq_false]
    intro s hs
    obtain ⟨vs, rfl, -⟩ := h s hs
    exact Bool.false_ne_true
  -- Nothing is spread and null is not set apart; only doubles may have been dropped.
  have hd : AllListed values (Schema.distinct [] ss) := fun s hs => h s (mem_of_mem_distinct hs)
  rw [Schema.oneOf, hspread, hnull] at hj
  generalize Schema.distinct [] ss = options at hj hd
  cases options with
  | nil =>
    have hn : judge .null v calls = (.ok (.ok (w, fit)), later) := hj
    rw [judge_leaf rfl, judgeLeaf] at hn
    split at hn
    · cases hn
      exact .inl rfl
    · cases hn
  | cons s rest =>
    cases rest with
    | nil => exact .inr (mem_of_judge_allListed hd List.mem_cons_self hj)
    | cons t rest =>
      have hu : judge (.union (s :: t :: rest)) v calls = (.ok (.ok (w, fit)), later) := hj
      rw [judge_union] at hu
      obtain hb | ⟨o, ho, before, after, hj⟩ := judge_of_judgeOptions hu
      · cases hb
      · exact .inr (mem_of_judge_allListed hd ho hj)

/-- The schemas of literals list their values. There are schemas for all of them when their values
can be shown. -/
theorem allListed_of_schemas? {name : String} {rs : List Rule} (hl : Rule.areLiterals rs = true)
    (hr : Rule.everyCheckOf rs = []) :
    (∀ ss, schemas? name rs = some ss → AllListed (Rule.literalValues rs) ss) ∧
      ((∀ l ∈ Rule.literalValues rs, l.toValue.isWritable = true) →
        ∃ ss, schemas? name rs = some ss) := by
  induction rs with
  | nil =>
    refine ⟨fun ss hss => ?_, fun _ => ⟨[], rfl⟩⟩
    cases hss
    rintro s ⟨⟩
  | cons r rs ih =>
    rw [Rule.areLiterals, List.all_cons, Bool.and_eq_true] at hl
    rw [Rule.everyCheckOf, List.append_eq_nil_iff] at hr
    obtain ⟨hall, hexists⟩ := ih hl.2 hr.2
    obtain ⟨checks, vs, rfl⟩ : ∃ checks vs, r = .scalar checks (.literal vs) := by
      obtain ⟨h, -⟩ := hl
      split at h
      · exact ⟨_, _, rfl⟩
      · cases h
    have hc : checks = [] := hr.1
    subst hc
    have hschema : schema? name (.scalar [] (.literal vs)) = listedSchema? vs := by
      rw [schema?, scalarSchema?]
      cases listedSchema? vs <;> rfl
    have hvalues : Rule.literalValues (.scalar [] (.literal vs) :: rs) =
        vs ++ Rule.literalValues rs := rfl
    rw [schemas?, hschema, hvalues]
    constructor
    · intro ss hss
      split at hss
      · rename_i t ts ht hts
        cases hss
        obtain ⟨-, rfl⟩ := listedSchema?_eq_some.mp ht
        refine List.forall_mem_cons.mpr ⟨⟨_, rfl, fun l hl => ?_⟩, fun s hs => ?_⟩
        · exact List.mem_append_left _ (mem_of_mem_distinctLiterals hl)
        · obtain ⟨ws, rfl, hws⟩ := hall ts hts s hs
          exact ⟨ws, rfl, fun l hl => List.mem_append_right _ (hws hl)⟩
      · cases hss
    · intro hw
      rw [List.forall_mem_append] at hw
      obtain ⟨ss, hss⟩ := hexists hw.2
      rw [hss, listedSchema?_eq_some.mpr ⟨hw.1, rfl⟩]
      exact ⟨_, rfl⟩

def listed? : Rule → Option (List Literal)
  | .scalar _ (.literal vs) => some vs
  | .union _ rs => if Rule.areLiterals rs then some (Rule.literalValues rs) else none
  | _ => none

theorem mem_of_judge_listedLeaf {name : String} {leaf : Rule} (hr : leaf.everyCheck = [])
    {values : List Literal} (hl : listed? leaf = some values) :
    (∀ s, schema? name leaf = some s → ∀ v calls w fit later,
      judge s v calls = (.ok (.ok (w, fit)), later) → w = .null ∨ ∃ l ∈ values, w = l.toValue) ∧
    ((∀ l ∈ values, l.toValue.isWritable = true) → ∃ s, schema? name leaf = some s) := by
  unfold listed? at hl
  split at hl
  · rename_i checks vs
    cases hl
    have hn : checks = [] := hr
    subst hn
    have hschema : schema? name (.scalar [] (.literal values)) = listedSchema? values := by
      rw [schema?, scalarSchema?]
      cases listedSchema? values <;> rfl
    rw [hschema]
    refine ⟨fun s hs v calls w fit later hj => ?_, fun hw => ?_⟩
    · obtain ⟨-, rfl⟩ := listedSchema?_eq_some.mp hs
      have hall : AllListed values [.listed (distinctLiterals [] values)] := by
        intro s hs
        exact ⟨_, List.mem_singleton.mp hs, fun l hl => mem_of_mem_distinctLiterals hl⟩
      exact .inr (mem_of_judge_allListed hall List.mem_cons_self hj)
    · exact ⟨_, listedSchema?_eq_some.mpr ⟨hw, rfl⟩⟩
  · rename_i checks rs
    split at hl
    · rename_i hrs
      cases hl
      rw [Rule.everyCheck, List.append_eq_nil_iff] at hr
      obtain ⟨rfl, hr⟩ := hr
      obtain ⟨hall, hexists⟩ := @allListed_of_schemas? name rs hrs hr
      refine ⟨fun s hs v calls w fit later hj => ?_, fun hw => ?_⟩
      · rw [schema?] at hs
        obtain ⟨ss, hss, rfl⟩ := Option.map_eq_some_iff.mp hs
        exact mem_of_judge_oneOf (hall ss hss) hj
      · obtain ⟨ss, hss⟩ := hexists hw
        exact ⟨_, by rw [schema?, hss]; rfl⟩
    · cases hl
  · cases hl

theorem mem_of_judge_listed {name : String} {r : Rule} (hr : r.everyCheck = [])
    {values : List Literal} (hl : listed? r.leaf = some values) {s : Schema}
    (hs : schema? name r = some s) {v w : Value} {calls later : Calls} {fit : Fit}
    (hj : judge s v calls = (.ok (.ok (w, fit)), later)) :
    w = .null ∨ ∃ l ∈ values, w = l.toValue := by
  obtain ⟨t, ht⟩ := exists_schema?_leaf hs
  obtain ⟨s', hs', -, hback⟩ := schema?_layers hr ht
  cases hs.symm.trans hs'
  exact (hback v calls w fit later hj).elim .inl
    ((mem_of_judge_listedLeaf (Rule.everyCheck_leaf hr) hl).1 t ht v calls w fit later)

end Tablewright.Row
