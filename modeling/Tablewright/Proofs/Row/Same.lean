import Tablewright.Proofs.Row.Agreement
import Tablewright.Proofs.Row.LeafAgain
import Tablewright.Proofs.Row.Steady

namespace Tablewright

namespace Number

theorem same_congr_right {m n : Number} (h : m.position? = n.position?) (k : Number) :
    k.same m = k.same n := by
  rw [same, same, h]

theorem position?_of_same {m n : Number} (h : m.same n = true) : m.position? = n.position? := by
  obtain ⟨p, hm, hn⟩ := same_eq_true.mp h
  rw [hm, hn]

end Number

theorem Decimal.same_congr_right {m n : Number} (h : m.position? = n.position?) (d : Decimal) :
    d.same m = d.same n := by
  rw [Bool.eq_iff_iff, same_eq_true, same_eq_true, h]

namespace Row

theorem sameOptions_iff {as bs : List Schema} :
    Schema.sameOptions as bs = true ↔ ∀ a ∈ as, ∃ b ∈ bs, a.same b = true := by
  induction as with
  | nil => simp [Schema.sameOptions]
  | cons a as ih =>
    rw [Schema.sameOptions, Bool.and_eq_true, ih, List.any_eq_true, List.forall_mem_cons]

/-- Where as many elements as there are on the other side are paired off, no two of them with one,
nothing is left over. -/
theorem exists_of_paired {R : α → α → Prop} {P : α → β → Prop} {xs : List α} {ys : List β}
    (hl : xs.length = ys.length) (hx : xs.Pairwise fun a b => ¬R a b)
    (hp : ∀ x ∈ xs, ∃ y ∈ ys, P x y)
    (hr : ∀ a ∈ xs, ∀ b ∈ xs, ∀ y ∈ ys, P a y → P b y → R a b) : ∀ y ∈ ys, ∃ x ∈ xs, P x y := by
  induction xs generalizing ys with
  | nil =>
    rw [List.eq_nil_of_length_eq_zero hl.symm]
    rintro y ⟨⟩
  | cons a xs ih =>
    obtain ⟨ha, hxs⟩ := List.pairwise_cons.mp hx
    obtain ⟨⟨b, hb, hab⟩, hp⟩ := List.forall_mem_cons.mp hp
    obtain ⟨left, right, rfl⟩ := List.append_of_mem hb
    -- What is paired with the first element is taken out: nothing else is paired with it.
    have hrest : ∀ x ∈ xs, ∃ y ∈ left ++ right, P x y := by
      intro x hm
      obtain ⟨y, hy, hxy⟩ := hp x hm
      rw [List.mem_append, List.mem_cons] at hy
      obtain hy | rfl | hy := hy
      · exact ⟨y, List.mem_append_left right hy, hxy⟩
      · exact absurd (hr a List.mem_cons_self x (List.mem_cons_of_mem a hm) y hb hab hxy) (ha x hm)
      · exact ⟨y, List.mem_append_right left hy, hxy⟩
    have hsub : left ++ right ⊆ left ++ b :: right := by
      intro y hy
      rw [List.mem_append] at hy
      exact List.mem_append.mpr (hy.imp id (List.mem_cons_of_mem b))
    have honto := ih (by simp at hl ⊢; omega) hxs hrest fun c hc d hd y hy =>
      hr c (List.mem_cons_of_mem a hc) d (List.mem_cons_of_mem a hd) y (hsub hy)
    intro y hy
    rw [List.mem_append, List.mem_cons] at hy
    obtain hy | rfl | hy := hy
    · obtain ⟨x, hm, hxy⟩ := honto y (List.mem_append_left right hy)
      exact ⟨x, List.mem_cons_of_mem a hm, hxy⟩
    · exact ⟨a, List.mem_cons_self, hab⟩
    · obtain ⟨x, hm, hxy⟩ := honto y (List.mem_append_right left hy)
      exact ⟨x, List.mem_cons_of_mem a hm, hxy⟩

namespace Schema

mutual

def Apart : Schema → Prop
  | .nullable s | .list s => s.Apart
  | .union ss => ss.Pairwise (fun s t => ¬s.same t = true) ∧ ApartOf ss
  | _ => True

def ApartOf : List Schema → Prop
  | [] => True
  | s :: ss => s.Apart ∧ ApartOf ss

end

theorem apartOf_iff {ss : List Schema} : ApartOf ss ↔ ∀ s ∈ ss, s.Apart := by
  induction ss with
  | nil => simp [ApartOf]
  | cons s ss ih => rw [ApartOf, ih, List.forall_mem_cons]

/-- Being alike goes both ways and carries on, though not everything is like itself. -/
structure Likeness (p : α → α → Bool) : Prop where
  symm : ∀ {x y}, p x y = true → p y x = true
  trans : ∀ {x y z}, p x y = true → p y z = true → p x z = true

theorem likeness_beq [BEq α] [LawfulBEq α] : Likeness fun x y : α => x == y where
  symm h := beq_iff_eq.mpr (beq_iff_eq.mp h).symm
  trans h h' := beq_iff_eq.mpr ((beq_iff_eq.mp h).trans (beq_iff_eq.mp h'))

theorem likeness_same {f : α → Number} : Likeness fun x y => (f x).same (f y) where
  symm h := by
    obtain ⟨p, hx, hy⟩ := Number.same_eq_true.mp h
    exact Number.same_eq_true.mpr ⟨p, hy, hx⟩
  trans h h' := by
    rw [Number.same_congr h]
    exact h'

/-- Literals that are alike are one, or they are doubles that denote one number. -/
theorem cases_sameLiteral {l k : Literal} (h : sameLiteral l k = true) :
    l = k ∨ ∃ x y, l = .float x ∧ k = .float y ∧ (Number.float x).same (.float y) = true := by
  cases l with
  | float x =>
    cases k with
    | float y => exact .inr ⟨x, y, rfl, rfl, h⟩
    | _ => cases h
  | _ => exact .inl (by cases k <;> exact beq_iff_eq.mp h)

theorem likeness_sameLiteral : Likeness sameLiteral where
  symm h := by
    obtain rfl | ⟨x, y, rfl, rfl, hxy⟩ := cases_sameLiteral h
    · exact h
    · exact (likeness_same (f := Number.float)).symm hxy
  trans h h' := by
    obtain rfl | ⟨x, y, rfl, rfl, hxy⟩ := cases_sameLiteral h
    · exact h'
    · obtain rfl | ⟨_, z, he, rfl, hyz⟩ := cases_sameLiteral h'
      · exact h
      · cases he
        exact (likeness_same (f := Number.float)).trans hxy hyz

theorem likeness_sameElements {p : α → α → Bool} (hp : Likeness p) :
    Likeness (sameElements p) where
  symm h := by
    rw [sameElements, Bool.and_comm]
    exact h
  trans {xs ys zs} h h' := by
    simp only [sameElements, Bool.and_eq_true, List.all_eq_true, List.any_eq_true] at h h' ⊢
    have hgo {as bs cs : List α} (h : ∀ a ∈ as, ∃ b ∈ bs, p a b = true)
        (h' : ∀ b ∈ bs, ∃ c ∈ cs, p b c = true) : ∀ a ∈ as, ∃ c ∈ cs, p a c = true := by
      intro a ha
      obtain ⟨b, hb, hab⟩ := h a ha
      obtain ⟨c, hc, hbc⟩ := h' b hb
      exact ⟨c, hc, hp.trans hab hbc⟩
    exact ⟨hgo h.1 h'.1, hgo h'.2 h.2⟩

def sameOption (p : α → α → Bool) : Option α → Option α → Bool
  | none, none => true
  | some x, some y => p x y
  | _, _ => false

theorem sameLimits_eq (p : α → α → Bool) (a b : Limits α) :
    sameLimits p a b = (sameOption p a.least b.least && sameOption p a.most b.most &&
      sameOption p a.above b.above && sameOption p a.below b.below) := rfl

theorem likeness_sameOption {p : α → α → Bool} (hp : Likeness p) : Likeness (sameOption p) where
  symm {x y} h := by
    cases x <;> cases y <;> first
      | exact hp.symm h
      | exact h
  trans {x y z} h h' := by
    cases x <;> cases y <;> cases z <;> first
      | exact hp.trans h h'
      | exact h
      | exact h'
      | cases h

theorem likeness_sameLimits {p : α → α → Bool} (hp : Likeness p) : Likeness (sameLimits p) where
  symm h := by
    have ho := likeness_sameOption hp
    simp only [sameLimits_eq, Bool.and_eq_true] at h ⊢
    exact ⟨⟨⟨ho.symm h.1.1.1, ho.symm h.1.1.2⟩, ho.symm h.1.2⟩, ho.symm h.2⟩
  trans h h' := by
    have ho := likeness_sameOption hp
    simp only [sameLimits_eq, Bool.and_eq_true] at h h' ⊢
    exact ⟨⟨⟨ho.trans h.1.1.1 h'.1.1.1, ho.trans h.1.1.2 h'.1.1.2⟩, ho.trans h.1.2 h'.1.2⟩,
      ho.trans h.2 h'.2⟩

theorem eq_union_of_same {s : Schema} {us : List Schema} (h : s.same (.union us) = true) :
    ∃ ss, s = .union ss ∧ ss.length = us.length ∧ ∀ t ∈ ss, ∃ u ∈ us, t.same u = true := by
  cases s with
  | union ss =>
    rw [same, Bool.and_eq_true, decide_eq_true_eq, sameOptions_iff] at h
    exact ⟨ss, rfl, h⟩
  | _ => cases h

theorem eq_list_of_same {s u : Schema} (h : s.same (.list u) = true) :
    ∃ t, s = .list t ∧ t.same u = true := by
  cases s with
  | list t => exact ⟨t, rfl, by rwa [same] at h⟩
  | _ => cases h

theorem eq_nullable_of_same {s u : Schema} (h : s.same (.nullable u) = true) :
    ∃ t, s = .nullable t ∧ t.same u = true := by
  cases s with
  | nullable t => exact ⟨t, rfl, by rwa [same] at h⟩
  | _ => cases h

theorem same_of_leaf {s t u : Schema} (hu : u.isLeaf = true) (hs : s.same u = true)
    (ht : t.same u = true) : s.same t = true := by
  have hjoin {α : Type} {p : α → α → Bool} (hp : Likeness p) {a b c : α} (ha : p a c = true)
      (hb : p b c = true) : p a b = true := hp.trans ha (hp.symm hb)
  cases u with
  | nullable | union | list | object | refined => cases hu
  | text l =>
    cases s with
    | text a =>
      cases t with
      | text b => exact hjoin likeness_beq hs ht
      | _ => cases ht
    | _ => cases hs
  | int l =>
    cases s with
    | int a =>
      cases t with
      | int b => exact hjoin (likeness_sameLimits likeness_beq) hs ht
      | _ => cases ht
    | _ => cases hs
  | float l =>
    cases s with
    | float a =>
      cases t with
      | float b => exact hjoin (likeness_sameLimits (likeness_same (f := Number.float))) hs ht
      | _ => cases ht
    | _ => cases hs
  | listed l =>
    cases s with
    | listed a =>
      cases t with
      | listed b => exact hjoin (likeness_sameElements likeness_sameLiteral) hs ht
      | _ => cases ht
    | _ => cases hs
  | _ =>
    cases s <;> cases hs
    cases t <;> cases ht
    rfl

mutual

theorem euclidean_apart : ∀ (u : Schema) {s t : Schema}, s.Apart → t.Apart → s.same u = true →
    t.same u = true → s.same t = true
  | .nullable u, s, t, ha, hb, hs, ht => by
    obtain ⟨s, rfl, hs⟩ := eq_nullable_of_same hs
    obtain ⟨t, rfl, ht⟩ := eq_nullable_of_same ht
    rw [same]
    exact euclidean_apart u ha hb hs ht
  | .list u, s, t, ha, hb, hs, ht => by
    obtain ⟨s, rfl, hs⟩ := eq_list_of_same hs
    obtain ⟨t, rfl, ht⟩ := eq_list_of_same ht
    rw [same]
    exact euclidean_apart u ha hb hs ht
  | .union us, s, t, ha, hb, hs, ht => by
    obtain ⟨ss, rfl, hsl, hsu⟩ := eq_union_of_same hs
    obtain ⟨ts, rfl, htl, htu⟩ := eq_union_of_same ht
    -- Both unions have as many options as the third one, no two of them alike, so none of the
    -- options of the third is left without one of theirs.
    have hparts := apartOf_iff.mp ha.2
    have hothers := apartOf_iff.mp hb.2
    have honto := exists_of_paired htl hb.1 htu fun a hma b hmb u hu =>
      euclidean_apartOf us u hu (hothers a hma) (hothers b hmb)
    rw [same, Bool.and_eq_true, decide_eq_true_eq, sameOptions_iff]
    refine ⟨hsl.trans htl.symm, fun a hma => ?_⟩
    obtain ⟨u, hu, hau⟩ := hsu a hma
    obtain ⟨b, hmb, hbu⟩ := honto u hu
    exact ⟨b, hmb, euclidean_apartOf us u hu (hparts a hma) (hothers b hmb) hau hbu⟩
  | .object .., s, t, _, _, hs, _ | .refined .., s, t, _, _, hs, _ => by cases s <;> cases hs
  | .text _, _, _, _, _, hs, ht | .int _, _, _, _, _, hs, ht | .float _, _, _, _, _, hs, ht
  | .bool, _, _, _, _, hs, ht | .bytes, _, _, _, _, hs, ht | .date, _, _, _, _, hs, ht
  | .datetime, _, _, _, _, hs, ht | .duration, _, _, _, _, hs, ht | .null, _, _, _, _, hs, ht
  | .any, _, _, _, _, hs, ht | .listed _, _, _, _, _, hs, ht => same_of_leaf rfl hs ht

theorem euclidean_apartOf : ∀ (us : List Schema), ∀ u ∈ us, ∀ {s t : Schema}, s.Apart → t.Apart →
    s.same u = true → t.same u = true → s.same t = true
  | [], _, hu, _, _, _, _, _, _ => absurd hu List.not_mem_nil
  | v :: us, u, hu, s, t, ha, hb, hs, ht => by
    obtain heq | hu := List.mem_cons.mp hu
    · rw [heq] at hs ht
      exact euclidean_apart v ha hb hs ht
    · exact euclidean_apartOf us u hu ha hb hs ht

end

theorem all_congr_of_same {p : α → α → Bool} {q : α → Bool} (hq : ∀ x y, p x y = true → q x = q y)
    {x y : Option α} (h : sameOption p x y = true) : x.all q = y.all q := by
  cases x <;> cases y <;> first
    | rfl
    | exact hq _ _ h
    | cases h

end Schema

theorem againstLimits_congr {p : α → α → Bool} {number : α → Number} {shown : α → String}
    (hp : ∀ a b, p a b = true → (number a).position? = (number b).position?) {l l' : Limits α}
    (h : Schema.sameLimits p l l' = true) (x : α) :
    (againstLimits number shown l x).isNone = (againstLimits number shown l' x).isNone := by
  simp only [Schema.sameLimits_eq, Bool.and_eq_true] at h
  obtain ⟨⟨⟨hleast, hmost⟩, habove⟩, hbelow⟩ := h
  simp only [againstLimits, isNone_firstFailing, List.all_append, all_toList_map]
  congr 1
  · congr 1
    · congr 1
      · exact Schema.all_congr_of_same (fun a b h => by rw [Number.le, Number.le, hp a b h]) hmost
      · exact Schema.all_congr_of_same (fun a b h => by rw [Number.lt, Number.lt, hp a b h]) hbelow
    · exact Schema.all_congr_of_same (fun a b h => by rw [Number.le, Number.le, hp a b h]) hleast
  · exact Schema.all_congr_of_same (fun a b h => by rw [Number.lt, Number.lt, hp a b h]) habove

theorem isSome_findListed (values : List Literal) (v : Value) :
    (findListed values v).isSome = true ↔
      ∃ l ∈ values, isExactly v l = true ∨ denotesSame v l = true := by
  have hloose {l : Literal} : l ∈ (values.partition isLoose).1.reverse ↔
      l ∈ values ∧ isLoose l = true := by
    rw [List.mem_reverse, List.partition_eq_filter_filter, List.mem_filter]
  have hfirm {l : Literal} : l ∈ (values.partition isLoose).2.reverse ↔
      l ∈ values ∧ isLoose l = false := by
    rw [List.mem_reverse, List.partition_eq_filter_filter, List.mem_filter]
    simp
  unfold findListed
  dsimp only
  split
  · rename_i l hl
    exact iff_of_true rfl ⟨l, List.mem_of_find?_eq_some hl, .inl (List.find?_some hl)⟩
  · rename_i hexact
    split
    · rename_i l hl
      exact iff_of_true rfl
        ⟨l, (hloose.mp (List.mem_of_find?_eq_some hl)).1, .inr (List.find?_some hl)⟩
    · rename_i hnone
      rw [List.find?_isSome]
      constructor
      · rintro ⟨l, hl, hv⟩
        exact ⟨l, (hfirm.mp hl).1, .inr hv⟩
      · rintro ⟨l, hl, hv | hv⟩
        · exact absurd hv (List.find?_eq_none.mp hexact l hl)
        · cases hlo : isLoose l with
          | true => exact absurd hv (List.find?_eq_none.mp hnone l (hloose.mpr ⟨hl, hlo⟩))
          | false => exact ⟨l, hfirm.mpr ⟨hl, hlo⟩, hv⟩

theorem denotesSame_of_same {l k : Literal} (h : Schema.sameLiteral l k = true) {v : Value}
    (hv : isExactly v l = true ∨ denotesSame v l = true) :
    isExactly v k = true ∨ denotesSame v k = true := by
  obtain rfl | ⟨x, y, rfl, rfl, hxy⟩ := Schema.cases_sameLiteral h
  · exact hv
  · have hp := Number.position?_of_same hxy
    refine .inr ?_
    obtain hv | hv := hv
    · cases hv
    · cases v with
      | decimal d =>
        have hd (z : Binary64) : denotesSame (.decimal d) (.float z) = d.same (.float z) := rfl
        rw [hd] at hv ⊢
        rw [← Decimal.same_congr_right hp]
        exact hv
      | bool | int | float =>
        rw [denotesSame_of_number rfl, literalNumber?, Option.any_some] at hv ⊢
        rw [← Number.same_congr_right hp]
        exact hv
      | _ => cases hv

theorem isSome_findListed_of_same {ls ks : List Literal}
    (h : Schema.sameElements Schema.sameLiteral ks ls = true) (v : Value) :
    (findListed ls v).isSome = (findListed ks v).isSome := by
  have hgo {as bs : List Literal} (hab : ∀ a ∈ as, ∃ b ∈ bs, Schema.sameLiteral a b = true)
      (ha : ∃ a ∈ as, isExactly v a = true ∨ denotesSame v a = true) :
      ∃ b ∈ bs, isExactly v b = true ∨ denotesSame v b = true := by
    obtain ⟨a, ha, hv⟩ := ha
    obtain ⟨b, hb, hsame⟩ := hab a ha
    exact ⟨b, hb, denotesSame_of_same hsame hv⟩
  have hboth := Bool.and_eq_true_iff.mp h
  simp only [List.all_eq_true, List.any_eq_true] at hboth
  rw [Bool.eq_iff_iff, isSome_findListed, isSome_findListed]
  refine ⟨hgo fun l hl => ?_, hgo hboth.1⟩
  obtain ⟨k, hk, hkl⟩ := hboth.2 l hl
  exact ⟨k, hk, hkl⟩

theorem accepted_listed (values : List Literal) (sure : Bool) (v : Value) :
    accepted sure (judgeLeaf (.listed values) v) = (findListed values v).isSome := by
  rw [judgeLeaf, judgeListed]
  cases findListed values v with
  | none => rfl
  | some l => exact accepted_exact sure _

theorem accepted_settle_congr {wrap : α → Value} {f g : α → Option Cause}
    (h : ∀ a, (f a).isNone = (g a).isNone) (read : Coerced α) (sure : Bool) :
    accepted sure (settle wrap g read) = accepted sure (settle wrap f read) := by
  cases read with
  | error c => rfl
  | ok p =>
    have hp := h p.1
    rw [settle, settle]
    cases hf : f p.1 <;> cases hg : g p.1 <;> rw [hf, hg] at hp <;> first | rfl | cases hp

theorem accepted_judgeLeaf_of_same {s t : Schema} (hs : s.isLeaf = true) (h : t.same s = true)
    (sure : Bool) (v : Value) :
    accepted sure (judgeLeaf s v) = accepted sure (judgeLeaf t v) := by
  cases s with
  | nullable | union | list | object | refined => cases hs
  | text l =>
    cases t with
    | text k =>
      have hk : k = l := beq_iff_eq.mp h
      rw [hk]
    | _ => cases h
  | int l =>
    cases t with
    | int k =>
      rw [judgeLeaf, judgeLeaf]
      refine accepted_settle_congr (fun x => againstLimits_congr (fun a b hab => ?_) h x) _ _
      rw [beq_iff_eq.mp hab]
    | _ => cases h
  | float l =>
    cases t with
    | float k =>
      rw [judgeLeaf, judgeLeaf]
      refine accepted_settle_congr (fun x => ?_) _ _
      rw [againstFloat, againstFloat]
      split
      · exact againstLimits_congr (fun a b hab => Number.position?_of_same hab) h x
      · rfl
    | _ => cases h
  | listed ls =>
    cases t with
    | listed ks => rw [accepted_listed, accepted_listed, isSome_findListed_of_same h]
    | _ => cases h
  | _ =>
    cases t <;> cases h
    rfl

/-- Two schemas come to an end about every value and accept the same, and alike exactly. -/
structure Schema.TakesAlike (s t : Schema) : Prop where
  left (v : Value) : (judge s v).Steady
  right (v : Value) : (judge t v).Steady
  takes (sure : Bool) (v : Value) : s.Takes sure v ↔ t.Takes sure v

namespace Schema.TakesAlike

variable {s t : Schema}

theorem of_leaf (hs : s.isLeaf = true) (h : t.same s = true) : s.TakesAlike t := by
  have ht : t.isLeaf = true := by
    cases s with
    | nullable | union | list | object | refined => cases hs
    | _ => cases t <;> first | rfl | cases h
  constructor
  · intro v
    rw [judge_leaf hs]
    exact ⟨_, Run.gives_pure _⟩
  · intro v
    rw [judge_leaf ht]
    exact ⟨_, Run.gives_pure _⟩
  · intro sure v
    rw [takes_leaf hs, takes_leaf ht, accepted_judgeLeaf_of_same hs h]

theorem nullable (h : s.TakesAlike t) : (Schema.nullable s).TakesAlike (.nullable t) := by
  have hsteady {u : Schema} (hu : ∀ v, (judge u v).Steady) (v : Value) :
      (judge (.nullable u) v).Steady := by
    rw [judge_nullable]
    split
    · exact ⟨_, Run.gives_pure _⟩
    · exact hu v
  refine ⟨hsteady h.left, hsteady h.right, fun sure v => ?_⟩
  rw [takes_nullable, takes_nullable, h.takes]

theorem list (h : s.TakesAlike t) : (Schema.list s).TakesAlike (.list t) := by
  have hsteady {u : Schema} (hu : ∀ v, (judge u v).Steady) (v : Value) :
      (judge (.list u) v).Steady := by
    obtain ⟨j, hj, -⟩ := gives_list hu v
    exact ⟨j, hj⟩
  refine ⟨hsteady h.left, hsteady h.right, fun sure v => ?_⟩
  obtain ⟨j, hj, hleft⟩ := gives_list h.left v
  obtain ⟨k, hk, hright⟩ := gives_list h.right v
  rw [takes_iff_of_gives hj, takes_iff_of_gives hk, hleft, hright]
  simp only [h.takes]

theorem union {ss ts : List Schema} (hs : ∀ s ∈ ss, ∃ t ∈ ts, s.TakesAlike t)
    (ht : ∀ t ∈ ts, ∃ s ∈ ss, s.TakesAlike t) : (Schema.union ss).TakesAlike (.union ts) := by
  have hleft (v : Value) : Ends v ss := ends_of_steady fun s hm => by
    obtain ⟨t, -, halike⟩ := hs s hm
    exact halike.left v
  have hright (v : Value) : Ends v ts := ends_of_steady fun t hm => by
    obtain ⟨s, -, halike⟩ := ht t hm
    exact halike.right v
  refine ⟨fun v => (hleft v).steady, fun v => (hright v).steady, fun sure v => ?_⟩
  rw [(hleft v).takes_union, (hright v).takes_union]
  constructor
  · rintro ⟨s, hm, htakes⟩
    obtain ⟨t, hmt, halike⟩ := hs s hm
    exact ⟨t, hmt, (halike.takes sure v).mp htakes⟩
  · rintro ⟨t, hm, htakes⟩
    obtain ⟨s, hms, halike⟩ := ht t hm
    exact ⟨s, hms, (halike.takes sure v).mpr htakes⟩

end Schema.TakesAlike

mutual

/-- Of two options that are alike, one accepts what the other one does: neither has functions. -/
theorem takesAlike_of_same : ∀ (s : Schema) {t : Schema}, t.Apart → t.same s = true →
    s.TakesAlike t
  | .nullable s, t, ha, h => by
    obtain ⟨t, rfl, hsame⟩ := Schema.eq_nullable_of_same h
    exact (takesAlike_of_same s (t := t) ha hsame).nullable
  | .list s, t, ha, h => by
    obtain ⟨t, rfl, hsame⟩ := Schema.eq_list_of_same h
    exact (takesAlike_of_same s (t := t) ha hsame).list
  | .union ss, t, ha, h => by
    obtain ⟨ts, rfl, hl, hts⟩ := Schema.eq_union_of_same h
    have hapart := Schema.apartOf_iff.mp ha.2
    have honto := exists_of_paired hl ha.1 hts fun a hma b hmb u hu =>
      Schema.euclidean_apartOf ss u hu (hapart a hma) (hapart b hmb)
    refine .union (fun s hs => ?_) fun t ht => ?_
    · obtain ⟨t, ht, hsame⟩ := honto s hs
      exact ⟨t, ht, takesAlike_of_sameOf ss s hs (hapart t ht) hsame⟩
    · obtain ⟨s, hs, hsame⟩ := hts t ht
      exact ⟨s, hs, takesAlike_of_sameOf ss s hs (hapart t ht) hsame⟩
  | .object .., t, _, h | .refined .., t, _, h => by cases t <;> cases h
  | .text _, _, _, h | .int _, _, _, h | .float _, _, _, h | .bool, _, _, h | .bytes, _, _, h
  | .date, _, _, h | .datetime, _, _, h | .duration, _, _, h | .null, _, _, h | .any, _, _, h
  | .listed _, _, _, h => .of_leaf rfl h

theorem takesAlike_of_sameOf : ∀ (ss : List Schema), ∀ s ∈ ss, ∀ {t : Schema}, t.Apart →
    t.same s = true → s.TakesAlike t
  | [], _, hm, _, _, _ => absurd hm List.not_mem_nil
  | u :: ss, s, hm, t, ha, h => by
    obtain heq | hm := List.mem_cons.mp hm
    · rw [heq] at h ⊢
      exact takesAlike_of_same u ha h
    · exact takesAlike_of_sameOf ss s hm ha h

end

end Row

end Tablewright
