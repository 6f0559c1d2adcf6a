import Tablewright.Proofs.Row.Complaints
import Tablewright.Proofs.Row.Null

namespace Tablewright

namespace Run

/-- A computation that ends with one result, whatever has been called before. -/
def Gives (r : Run α) (a : α) : Prop := ∀ calls, ∃ later, r calls = (.ok a, later)

/-- A computation whose result does not depend on what has been called before. -/
def Steady (r : Run α) : Prop := ∃ a, r.Gives a

/-- A computation that has one outcome, be it a result or a fault. -/
def Fixed (r : Run α) : Prop := ∃ outcome, ∀ calls, (r calls).1 = outcome

theorem gives_pure (a : α) : (Pure.pure a : Run α).Gives a := fun calls => ⟨calls, rfl⟩

theorem Gives.bind {r : Run α} {next : α → Run β} {a : α} {b : β} (hr : r.Gives a)
    (hn : (next a).Gives b) : (r >>= next).Gives b := by
  intro calls
  obtain ⟨mid, ha⟩ := hr calls
  obtain ⟨later, hb⟩ := hn mid
  exact ⟨later, by rw [bind_ok ha, hb]⟩

theorem Gives.unique {r : Run α} {a b : α} (ha : r.Gives a) (hb : r.Gives b) : a = b := by
  obtain ⟨later, ha⟩ := ha []
  obtain ⟨other, hb⟩ := hb []
  rw [ha] at hb
  exact Except.ok.inj (Prod.mk.inj hb).1

theorem Fixed.gives {r : Run α} (h : r.Fixed) {calls later : Calls} {a : α}
    (ha : r calls = (.ok a, later)) : r.Gives a := by
  obtain ⟨outcome, h⟩ := h
  have hout := h calls
  rw [ha] at hout
  exact fun other => ⟨(r other).2, Prod.ext ((h other).trans hout.symm) rfl⟩

theorem Gives.of_bind {r : Run α} {next : α → Run β} {b : β} (hr : r.Fixed)
    (hn : ∀ a, (next a).Fixed) (h : (r >>= next).Gives b) :
    ∃ a, r.Gives a ∧ (next a).Gives b := by
  obtain ⟨later, h⟩ := h []
  obtain ⟨a, mid, ha, hb⟩ := bind_eq_ok.mp h
  exact ⟨a, hr.gives ha, (hn a).gives hb⟩

theorem closed_fixed : Closed Fixed where
  pure a := ⟨.ok a, fun _ => rfl⟩
  bind := by
    rintro α β r next ⟨outcome, hr⟩ hn
    cases outcome with
    | error f =>
      refine ⟨.error f, fun calls => ?_⟩
      rw [bind_error (Prod.ext (hr calls) rfl)]
    | ok a =>
      obtain ⟨outcome, hn⟩ := hn a ⟨[], _, Prod.ext (hr []) rfl⟩
      refine ⟨outcome, fun calls => ?_⟩
      rw [bind_ok (Prod.ext (hr calls) rfl), hn]

theorem gives_mapM {f : α → Run β} {xs : List α} (h : ∀ x ∈ xs, (f x).Steady) :
    ∃ ys, (xs.mapM f).Gives ys ∧ List.Forall₂ (fun x y => (f x).Gives y) xs ys := by
  induction xs with
  | nil => exact ⟨[], gives_pure [], .nil⟩
  | cons x xs ih =>
    obtain ⟨⟨y, hy⟩, hxs⟩ := List.forall_mem_cons.mp h
    obtain ⟨ys, hys, hall⟩ := ih hxs
    refine ⟨y :: ys, ?_, .cons hy hall⟩
    rw [List.mapM_cons]
    exact hy.bind (hys.bind (gives_pure _))

end Run

namespace Row

open Run (Gives Steady)

theorem fixed_judgeCheck (c : Refinement) (v : Value) (fit : Fit) : (judgeCheck c v fit).Fixed := by
  have hask (calls : Calls) : c.condition.ask v calls =
      (c.condition.test v, c.condition.slot :: calls) := rfl
  refine ⟨(judgeCheck c v fit []).1, fun calls => ?_⟩
  rw [judgeCheck, judgeCheck, hask, hask]
  cases c.condition.test v with
  | ok accepted => cases accepted <;> rfl
  | error f => cases f <;> rfl

abbrev Schema.Sourceless (s : Schema) : Prop := s.Every (fun _ _ => True) fun _ => False

theorem covers_fixed : Covers Run.Fixed (fun _ _ => True) fun _ => False :=
  ⟨Run.closed_fixed, fun _ _ w fit _ => fixed_judgeCheck _ w fit, False.elim⟩

theorem fixed_judge {s : Schema} (h : s.Sourceless) (v : Value) : (judge s v).Fixed :=
  closed_judge covers_fixed s h v

def accepted (sure : Bool) : Except Issues (α × Fit) → Bool
  | .ok b => !sure || b.2.isDecisive
  | .error _ => false

def Schema.Takes (sure : Bool) (s : Schema) (v : Value) : Prop :=
  ∃ j, (judge s v).Gives j ∧ accepted sure j = true

theorem takes_iff_of_gives {s : Schema} {v : Value} {j : Judgement} (h : (judge s v).Gives j)
    (sure : Bool) : s.Takes sure v ↔ accepted sure j = true := by
  constructor
  · rintro ⟨k, hk, htaken⟩
    rwa [h.unique hk]
  · exact fun htaken => ⟨j, h, htaken⟩

theorem takes_leaf {s : Schema} (hs : s.isLeaf = true) (sure : Bool) (v : Value) :
    s.Takes sure v ↔ accepted sure (judgeLeaf s v) = true :=
  takes_iff_of_gives (judge_leaf hs v ▸ Run.gives_pure _) sure

theorem accepted_exact (sure : Bool) (a : α) : accepted sure (.ok (a, .exact)) = true := by
  cases sure <;> rfl

theorem takes_nullable (sure : Bool) (s : Schema) (v : Value) :
    (Schema.nullable s).Takes sure v ↔ v.isNull = true ∨ s.Takes sure v := by
  rw [Schema.Takes, judge_nullable]
  cases v.isNull with
  | true => exact iff_of_true ⟨_, Run.gives_pure _, accepted_exact sure _⟩ (.inl rfl)
  | false => exact ⟨.inr, fun h => h.resolve_left Bool.false_ne_true⟩

/-- Options that come to an end about a value, up to the first one that decides about it. -/
inductive Ends (v : Value) : List Schema → Prop
  | nil : Ends v []
  | decided {s : Schema} {ss : List Schema} {b : Value × Fit} (h : (judge s v).Gives (.ok b))
    (hb : b.2.isDecisive = true) : Ends v (s :: ss)
  | next {s : Schema} {ss : List Schema} {j : Judgement} (h : (judge s v).Gives j)
    (hss : Ends v ss) : Ends v (s :: ss)

theorem ends_of_steady {ss : List Schema} {v : Value} (h : ∀ s ∈ ss, (judge s v).Steady) :
    Ends v ss := by
  induction ss with
  | nil => exact .nil
  | cons s ss ih =>
    obtain ⟨⟨j, hj⟩, hss⟩ := List.forall_mem_cons.mp h
    exact .next hj (ih hss)

theorem Ends.append {as bs : List Schema} {v : Value} (ha : Ends v as) (hb : Ends v bs) :
    Ends v (as ++ bs) := by
  induction ha with
  | nil => exact hb
  | decided h hdecides => exact .decided h hdecides
  | next h _ ih => exact .next h ih

theorem ends_of_judgeOptions {ss : List Schema} {best : Option (Value × Fit)} {issues : Issues}
    {v : Value} (hs : EveryOf (fun _ _ => True) (fun _ => False) ss)
    (h : (judgeOptions ss best issues v).Steady) : Ends v ss := by
  induction ss generalizing best issues with
  | nil => exact .nil
  | cons s ss ih =>
    obtain ⟨k, hk⟩ := h
    rw [judgeOptions_cons] at hk
    have hrest (best : Option (Value × Fit)) (issues : Issues) :
        (judgeOptions ss best issues v).Fixed := closed_judgeOptions covers_fixed ss hs.2 _ _ v
    obtain ⟨j, hj, hnext⟩ := Gives.of_bind (fixed_judge hs.1 v) (fun j => by
      cases j with
      | ok b =>
        dsimp only
        split
        · exact Run.closed_fixed.pure _
        · exact hrest _ _
      | error es => exact hrest _ _) hk
    cases j with
    | ok b =>
      cases hd : b.2.isDecisive with
      | true => exact .decided hj hd
      | false =>
        dsimp only at hnext
        rw [hd, if_neg Bool.false_ne_true] at hnext
        exact .next hj (ih hs.2 ⟨k, hnext⟩)
    | error es => exact .next hj (ih hs.2 ⟨k, hnext⟩)

/-- What options make of a value: the best of what they accept, which decides about it when one of
them does, or nothing when none of them accepts it. -/
theorem gives_judgeOptions {ss : List Schema} {v : Value} (h : Ends v ss)
    (best : Option (Value × Fit)) (issues : Issues) :
    (∃ b, (judgeOptions ss best issues v).Gives (.ok b) ∧
      (best = some b ∨ ∃ s ∈ ss, (judge s v).Gives (.ok b)) ∧
      ((∃ s ∈ ss, s.Takes true v) → b.2.isDecisive = true)) ∨
    best = none ∧ (∃ es, (judgeOptions ss best issues v).Gives (.error es)) ∧
      ∀ s ∈ ss, ∃ es, (judge s v).Gives (.error es) := by
  induction h generalizing best issues with
  | nil =>
    rw [judgeOptions_nil]
    cases best with
    | some b => exact .inl ⟨b, Run.gives_pure _, .inl rfl, by rintro ⟨s, ⟨⟩, -⟩⟩
    | none => exact .inr ⟨rfl, ⟨issues, Run.gives_pure _⟩, by rintro s ⟨⟩⟩
  | @decided s ss b hj hd =>
    refine .inl ⟨b, ?_, .inr ⟨s, List.mem_cons_self, hj⟩, fun _ => hd⟩
    rw [judgeOptions_cons]
    refine hj.bind ?_
    dsimp only
    rw [hd]
    exact Run.gives_pure _
  | @next s ss j hj hss ih =>
    have hlater (hs : ¬ s.Takes true v) {P : Prop} (hP : (∃ t ∈ ss, t.Takes true v) → P) :
        (∃ t ∈ s :: ss, t.Takes true v) → P := by
      rintro ⟨t, ht, htakes⟩
      obtain rfl | ht := List.mem_cons.mp ht
      · exact absurd htakes hs
      · exact hP ⟨t, ht, htakes⟩
    cases j with
    | ok b =>
      left
      rw [judgeOptions_cons]
      cases hd : b.2.isDecisive with
      | true =>
        refine ⟨b, hj.bind ?_, .inr ⟨s, List.mem_cons_self, hj⟩, fun _ => hd⟩
        dsimp only
        rw [hd]
        exact Run.gives_pure _
      | false =>
        have hs : ¬ s.Takes true v := by
          rw [takes_iff_of_gives hj, accepted, hd]
          exact Bool.false_ne_true
        obtain ⟨c, hc, hfrom, hsure⟩ | ⟨hnone, -⟩ := ih (keepBest best b) issues
        · refine ⟨c, hj.bind ?_, ?_, hlater hs hsure⟩
          · dsimp only
            rw [hd, if_neg Bool.false_ne_true]
            exact hc
          · obtain hbest | ⟨t, ht, hgives⟩ := hfrom
            · obtain hbest | rfl := eq_of_keepBest hbest
              · exact .inl hbest
              · exact .inr ⟨s, List.mem_cons_self, hj⟩
            · exact .inr ⟨t, List.mem_cons_of_mem s ht, hgives⟩
        · have hsome := isSome_keepBest best b
          rw [hnone] at hsome
          cases hsome
    | error es =>
      have hs : ¬ s.Takes true v := by
        rw [takes_iff_of_gives hj]
        exact Bool.false_ne_true
      rw [judgeOptions_cons]
      obtain ⟨c, hc, hfrom, hsure⟩ | ⟨hnone, ⟨fs, hfs⟩, hall⟩ :=
        ih best (issues ++ es.underKey s.label)
      · refine .inl ⟨c, hj.bind hc, hfrom.imp id ?_, hlater hs hsure⟩
        rintro ⟨t, ht, hgives⟩
        exact ⟨t, List.mem_cons_of_mem s ht, hgives⟩
      · exact .inr ⟨hnone, ⟨fs, hj.bind hfs⟩, List.forall_mem_cons.mpr ⟨⟨es, hj⟩, hall⟩⟩

section

variable {ss : List Schema} {v : Value} (h : Ends v ss)

include h

theorem Ends.steady : (judge (.union ss) v).Steady := by
  rw [judge_union]
  obtain ⟨b, hb, -⟩ | ⟨-, ⟨es, hes⟩, -⟩ := gives_judgeOptions h none []
  · exact ⟨_, hb⟩
  · exact ⟨_, hes⟩

theorem Ends.gives_union {b : Value × Fit} (hb : (judge (.union ss) v).Gives (.ok b)) :
    ∃ s ∈ ss, (judge s v).Gives (.ok b) := by
  rw [judge_union] at hb
  obtain ⟨c, hc, hfrom, -⟩ | ⟨-, ⟨es, hes⟩, -⟩ := gives_judgeOptions h none []
  · cases hb.unique hc
    exact hfrom.resolve_left (by rintro ⟨⟩)
  · cases hb.unique hes

theorem Ends.takes_union (sure : Bool) :
    (Schema.union ss).Takes sure v ↔ ∃ s ∈ ss, s.Takes sure v := by
  constructor
  · rintro ⟨j, hj, hsure⟩
    cases j with
    | ok b =>
      obtain ⟨s, hs, hgives⟩ := h.gives_union hj
      exact ⟨s, hs, _, hgives, hsure⟩
    | error es => cases hsure
  · rintro ⟨s, hs, htakes⟩
    rw [Schema.Takes, judge_union]
    obtain ⟨b, hb, -, hdecides⟩ | ⟨-, -, hall⟩ := gives_judgeOptions h none []
    · refine ⟨_, hb, ?_⟩
      cases sure with
      | false => rfl
      | true => exact hdecides ⟨s, hs, htakes⟩
    · obtain ⟨es, hes⟩ := hall s hs
      rw [takes_iff_of_gives hes] at htakes
      cases htakes

end

theorem isDecisive_both (f g : Fit) : (f.both g).isDecisive = (f.isDecisive && g.isDecisive) := by
  obtain ⟨e, m⟩ := f
  obtain ⟨d, n⟩ := g
  cases e <;> cases d <;> cases m <;> cases n <;> rfl

theorem accepted_joinItems (sure : Bool) (position : Nat) (js : List Judgement) :
    accepted sure (joinItems position js) = js.all (accepted sure) := by
  induction js generalizing position with
  | nil => exact accepted_exact sure _
  | cons j js ih =>
    rw [List.all_cons, ← ih (position + 1), joinItems]
    cases j with
    | error es => cases joinItems (position + 1) js <;> rfl
    | ok b =>
      cases joinItems (position + 1) js with
      | error es => exact (Bool.and_false _).symm
      | ok c =>
        cases sure with
        | false => rfl
        | true => exact isDecisive_both b.2 c.2

theorem all_accepted_iff_takes {sure : Bool} {s : Schema} {xs : List Value} {js : List Judgement}
    (h : List.Forall₂ (fun x j => (judge s x).Gives j) xs js) :
    js.all (accepted sure) = true ↔ ∀ x ∈ xs, s.Takes sure x := by
  induction h with
  | nil => simp
  | cons hj _ ih =>
    rw [List.all_cons, Bool.and_eq_true, ih, List.forall_mem_cons, takes_iff_of_gives hj]

section

variable {s : Schema} (h : ∀ v, (judge s v).Steady)

include h

theorem gives_list (v : Value) :
    ∃ j, (judge (.list s) v).Gives j ∧ ∀ sure, accepted sure j = true ↔
      ∃ xs e, Coercion.toItems v = some (xs, e) ∧ (sure = true → e = .exact) ∧
        ∀ x ∈ xs, s.Takes sure x := by
  rw [judge_list]
  cases Coercion.toItems v with
  | none =>
    refine ⟨_, Run.gives_pure _, fun sure => iff_of_false Bool.false_ne_true ?_⟩
    rintro ⟨xs, e, ⟨⟩, -⟩
  | some p =>
    obtain ⟨xs, e⟩ := p
    obtain ⟨js, hjs, hall⟩ := @Run.gives_mapM _ _ (judge s) xs fun x _ => h x
    refine ⟨(joinItems 0 js).map fun p => (.list p.1, (Fit.ofExactness e).both p.2), ?_, ?_⟩
    · dsimp only
      rw [judgeItems_eq, bind_assoc]
      refine hjs.bind ?_
      rw [pure_bind]
      exact Run.gives_pure _
    · intro sure
      have hwhole : accepted sure ((joinItems 0 js).map fun p =>
          (Value.list p.1, (Fit.ofExactness e).both p.2)) =
          ((!sure || decide (e = .exact)) && js.all (accepted sure)) := by
        rw [← accepted_joinItems sure 0 js]
        cases joinItems 0 js with
        | error es => exact (Bool.and_false _).symm
        | ok p =>
          cases sure with
          | false => rfl
          | true =>
            have hfit : (Fit.ofExactness e).isDecisive = decide (e = .exact) := Bool.and_true _
            refine (isDecisive_both _ p.2).trans ?_
            rw [hfit]
            rfl
      rw [hwhole, Bool.and_eq_true, all_accepted_iff_takes hall]
      constructor
      · rintro ⟨he, hxs⟩
        refine ⟨xs, e, rfl, fun hsure => ?_, hxs⟩
        rw [hsure] at he
        exact of_decide_eq_true he
      · rintro ⟨ys, d, hsome, hd, hys⟩
        cases hsome
        refine ⟨?_, hys⟩
        cases sure with
        | false => rfl
        | true => exact decide_eq_true (hd rfl)

end

end Row

end Tablewright
