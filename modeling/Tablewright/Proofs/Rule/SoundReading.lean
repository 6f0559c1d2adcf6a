import Tablewright.Proofs.Rule.Sound
import Tablewright.Proofs.Value.Entries

namespace Tablewright

namespace Read

theorem fieldOr_eq_ok {entries : Entries} {name : String} {absent : Read α}
    {read : Value → Read α} {a : α} :
    fieldOr entries name absent read = .ok a ↔
      (Value.field? entries name = none ∧ absent = .ok a) ∨
        ∃ v, Value.field? entries name = some v ∧ read v = .ok a := by
  rw [fieldOr, under_eq_ok]
  cases Value.field? entries name <;> simp

theorem sequence_eq_ok {start : Nat} {readings : List (Read α)} {as : List α} :
    sequence start readings = .ok as ↔ readings = as.map .ok := by
  induction readings generalizing start as with
  | nil => cases as <;> simp [sequence]
  | cons r rest ih =>
    rw [sequence, both_eq_ok]
    constructor
    · rintro ⟨a, more, hr, hrest, rfl⟩
      rw [under_eq_ok] at hr
      rw [hr, ih.mp hrest, List.map_cons]
    · intro h
      cases as with
      | nil => cases h
      | cons a more =>
        obtain ⟨hr, hrest⟩ := List.cons.inj h
        exact ⟨a, more, under_eq_ok.mpr hr, ih.mpr hrest, rfl⟩

theorem exists_of_items {read : Value → Read α} {start : Nat} {vs : List Value} {as : List α}
    (h : items read start vs = .ok as) : ∀ a ∈ as, ∃ v, read v = .ok a := by
  induction vs generalizing start as with
  | nil =>
    cases h
    simp
  | cons v vs ih =>
    obtain ⟨a, more, ha, hmore, rfl⟩ := both_eq_ok.mp h
    intro b hb
    rcases List.mem_cons.mp hb with rfl | hb
    · exact ⟨v, under_eq_ok.mp ha⟩
    · exact ih hmore b hb

theorem exists_of_tuple {read : Value → Read α} {v : Value} {as : List α}
    (h : tuple read v = .ok as) : ∀ a ∈ as, ∃ w, read w = .ok a := by
  unfold tuple at h
  split at h
  · cases h
  · exact exists_of_items h

end Read

namespace Rule

open Read

theorem finish_eq_ok {kind : Kind} {entries : Entries} {r : Read α} {a : α} :
    finish kind entries r = .ok a ↔
      r = .ok a ∧ entries.unknown ("refinements" :: "kind" :: fieldNames kind) = [] :=
  andIssues_eq_ok

theorem isFinite_of_readBound {v : Value} {n : Number} (h : readBound v = .ok n) : n.IsFinite := by
  unfold readBound at h
  split at h
  · cases h
  · split at h
    · cases h
      assumption
    · cases h
  · rename_i m hm hne
    cases h
    cases n with
    | int n => trivial
    | float x => exact absurd rfl (hm x)

theorem isFinite_of_field {entries : Entries} {name : String} {o : Option Number}
    (h : fieldOr entries name (.ok none) (orNull readBound) = .ok o) : ∀ n ∈ o, n.IsFinite := by
  intro n hn
  rcases fieldOr_eq_ok.mp h with ⟨-, habsent⟩ | ⟨v, -, hread⟩
  · cases habsent
    cases hn
  · exact isFinite_of_readBound (orNull_eq_ok hread n hn)

theorem isFinite_of_readNumber {entries : Entries} {r : NumberRule}
    (h : readNumber entries = .ok r) : ∀ bound ∈ r.bounds, ∀ n ∈ bound, n.IsFinite := by
  simp only [readNumber, both_eq_ok] at h
  obtain ⟨_, upper, ⟨_, lower, ⟨_, maximum, ⟨format, minimum, -, hmin, rfl⟩, hmax, rfl⟩, hlower,
    rfl⟩, hupper, rfl⟩ := h
  simp only [NumberRule.bounds, List.forall_mem_cons]
  exact ⟨isFinite_of_field hmin, isFinite_of_field hmax, isFinite_of_field hlower,
    isFinite_of_field hupper, by simp⟩

theorem eq_of_checkString {r s : StringRule} (h : checkString r = .ok s) : r = s := by
  unfold checkString at h
  split at h
  · split at h
    · cases h
    · exact Except.ok.inj h
  · exact Except.ok.inj h

theorem eq_of_checkEnum {values words : List String} (h : checkEnum values = .ok words) :
    values = words := by
  unfold checkEnum at h
  split at h
  · cases h
  · split at h
    · cases h
    · exact Except.ok.inj h

theorem eq_of_checkLiterals {values literals : List Literal}
    (h : checkLiterals values = .ok literals) : values = literals := by
  unfold checkLiterals at h
  split at h
  · cases h
  · split at h
    · cases h
    · exact Except.ok.inj h

theorem checked_of_field {entries : Entries} {read : Value → Read α}
    {check : List α → Read (List α)} (hcheck : ∀ {as bs}, check as = .ok bs → as = bs)
    {values : List α}
    (h : fieldOr entries "values" (fail .missing) (fun v => (tuple read v).bind check) =
      .ok values) : check values = .ok values := by
  rcases fieldOr_eq_ok.mp h with ⟨-, habsent⟩ | ⟨v, -, hread⟩
  · cases habsent
  · obtain ⟨as, -, has⟩ := bind_eq_ok.mp hread
    cases hcheck has
    exact has

theorem sound_of_readScalar {entries : Entries} {kind : Kind} {s t : Scalar}
    (hread : readScalar entries kind = .ok s) (hcheck : checkScalar s = .ok t) :
    SoundScalar t := by
  cases kind with
  | string =>
    obtain ⟨r, -, rfl⟩ := map_eq_ok.mp hread
    obtain ⟨r', hr, rfl⟩ := map_eq_ok.mp hcheck
    cases eq_of_checkString hr
    exact hr
  | number =>
    obtain ⟨r, hr, rfl⟩ := map_eq_ok.mp hread
    cases hcheck
    exact isFinite_of_readNumber hr
  | enum =>
    obtain ⟨values, hvalues, rfl⟩ := map_eq_ok.mp hread
    cases hcheck
    exact checked_of_field eq_of_checkEnum hvalues
  | literal =>
    obtain ⟨values, hvalues, rfl⟩ := map_eq_ok.mp hread
    cases hcheck
    exact checked_of_field eq_of_checkLiterals hvalues
  | _ =>
    cases hread
    cases hcheck
    trivial

section

variable {fs : Functions}

theorem readAll_eq_map (vs : List Value) : readAll fs vs = vs.map (read fs) := by
  induction vs with
  | nil => rw [readAll, List.map_nil]
  | cons v vs ih => rw [readAll, ih, List.map_cons]

theorem exists_of_readField {entries : Entries} {name : String} {r : Rule}
    (h : readField fs entries name = .ok r) :
    ∃ v, sizeOf v < sizeOf entries ∧ Value.field? entries name = some v ∧ read fs v = .ok r := by
  rw [readField, under_eq_ok] at h
  split at h
  · cases h
  · rename_i v hv hbelow
    exact ⟨v, hv, Entries.field?_of_below? hbelow, h⟩

/-- The rules of a union were read, each from one of the options, and there is one. -/
theorem options_of_readAll {vs : List Value} {start : Nat} {options : List Rule}
    (h : checkOptions (readAll fs vs) (sequence start (readAll fs vs)) = .ok options) :
    options ≠ [] ∧ ∀ r ∈ options, ∃ v ∈ vs, read fs v = .ok r := by
  rw [readAll_eq_map] at h
  unfold checkOptions at h
  split at h
  · exact absurd (andIssues_eq_ok.mp h).2 (by simp)
  · rename_i hsome
    have hall : vs.map (read fs) = options.map .ok := sequence_eq_ok.mp h
    constructor
    · rintro rfl
      exact hsome (by simp [hall])
    · intro r hr
      have hmem : (.ok r : Read Rule) ∈ vs.map (read fs) := by
        rw [hall]
        exact List.mem_map_of_mem hr
      simpa using hmem

theorem exists_of_readShape {shape : Entries} {parts : List (String × Rule)}
    (h : readShape fs shape = .ok parts) :
    ∀ p ∈ parts, ∃ v, sizeOf v < sizeOf shape ∧ read fs v = .ok p.2 := by
  induction shape generalizing parts with
  | nil =>
    rw [readShape] at h
    cases h
    simp
  | cons entry rest ih =>
    obtain ⟨k, v⟩ := entry
    rw [readShape, both_eq_ok] at h
    obtain ⟨p, more, hp, hmore, rfl⟩ := h
    obtain ⟨name, r, -, hr, rfl⟩ := both_eq_ok.mp hp
    intro q hq
    rcases List.mem_cons.mp hq with rfl | hq
    · exact ⟨v, by simp; omega, under_eq_ok.mp hr⟩
    · obtain ⟨w, hw, hread⟩ := ih hmore q hq
      exact ⟨w, by simp; omega, hread⟩

theorem holds_of_readCallable {v : Value} {c : Callable} (h : readCallable fs v = .ok c) :
    fs.Holds c := by
  unfold readCallable at h
  split at h
  · cases h
    exact fs.holds_callable _
  · cases h

theorem holds_of_readRefinement {v : Value} {c : Refinement} (h : readRefinement fs v = .ok c) :
    fs.Holds c.condition := by
  unfold readRefinement at h
  split at h
  · obtain ⟨f, _, hf, -, rfl⟩ := both_eq_ok.mp h
    rcases fieldOr_eq_ok.mp hf with ⟨-, habsent⟩ | ⟨w, -, hread⟩
    · cases habsent
    · exact holds_of_readCallable hread
  · cases h

theorem held_of_readChecks {entries : Entries} {cs : List Refinement}
    (h : readChecks fs entries = .ok cs) : Held fs cs := by
  rcases fieldOr_eq_ok.mp h with ⟨-, habsent⟩ | ⟨v, -, hread⟩
  · cases habsent
    exact held_nil
  · intro c hc
    obtain ⟨w, hw⟩ := exists_of_tuple hread c hc
    exact holds_of_readRefinement hw

theorem holds_of_readFactory {entries : Entries} {f : Callable}
    (h : readFactory fs entries = .ok (some f)) : fs.Holds f := by
  rcases fieldOr_eq_ok.mp h with ⟨-, habsent⟩ | ⟨v, -, hread⟩
  · cases habsent
  · exact holds_of_readCallable (orNull_eq_ok hread f rfl)

theorem sound_of_readNode {kind : Kind} {entries : Entries} {r : Rule}
    (below : ∀ v, sizeOf v < sizeOf entries → ∀ r, read fs v = .ok r → r.Sound fs)
    (h : readNode fs kind entries = .ok r) : r.Sound fs := by
  unfold readNode at h
  have hfield {name : String} {r : Rule} (hr : readField fs entries name = .ok r) :
      r.Sound fs := by
    obtain ⟨v, hv, -, hread⟩ := exists_of_readField hr
    exact below v hv r hread
  cases kind with
  | optional | nullable =>
    obtain ⟨cs, inner, hcs, hinner, rfl⟩ := both_eq_ok.mp (finish_eq_ok.mp h).1
    exact .layer (held_of_readChecks hcs) (by simp) (hfield hinner)
  | default =>
    obtain ⟨⟨cs, inner⟩, f, hboth, hf, rfl⟩ := both_eq_ok.mp (finish_eq_ok.mp h).1
    obtain ⟨cs, inner, hcs, hinner, hpair⟩ := both_eq_ok.mp hboth
    cases hpair
    refine .layer (held_of_readChecks hcs) (fun _ g hg => ?_) (hfield hinner)
    cases hg
    exact holds_of_readFactory hf
  | union =>
    obtain ⟨cs, options, hcs, hoptions, rfl⟩ := both_eq_ok.mp (finish_eq_ok.mp h).1
    rw [under_eq_ok] at hoptions
    have hsound (vs : List Value) (hvs : sizeOf vs < sizeOf entries)
        (h : checkOptions (readAll fs vs) (sequence 0 (readAll fs vs)) = .ok options) :
        (union cs options).Sound fs := by
      obtain ⟨hsome, heach⟩ := options_of_readAll h
      refine .union (held_of_readChecks hcs) hsome fun r hr => ?_
      obtain ⟨v, hv, hread⟩ := heach r hr
      exact below v (Nat.lt_trans (List.sizeOf_lt_of_mem hv) hvs) r hread
    split at hoptions
    · cases hoptions
    · rename_i xs hxs _
      exact hsound xs (by simp at hxs; omega) hoptions
    · rename_i xs hxs _
      exact hsound xs (by simp at hxs; omega) hoptions
    · rename_i xs hxs _
      exact hsound xs (by simp at hxs; omega) hoptions
    · cases hoptions
  | array =>
    obtain ⟨cs, items, hcs, hitems, rfl⟩ := both_eq_ok.mp (finish_eq_ok.mp h).1
    exact .array (held_of_readChecks hcs) (hfield hitems)
  | object =>
    obtain ⟨cs, shape, hcs, hshape, rfl⟩ := both_eq_ok.mp (finish_eq_ok.mp h).1
    rw [under_eq_ok] at hshape
    split at hshape
    · cases hshape
    · rename_i fields hfields _
      obtain ⟨parts, hparts, rfl⟩ := map_eq_ok.mp hshape
      refine .object (held_of_readChecks hcs) (nodup_shapeOf parts) fun p hp => ?_
      obtain ⟨q, hq, hqp⟩ := exists_of_mem_shapeOf hp
      obtain ⟨v, hv, hread⟩ := exists_of_readShape hparts q hq
      rw [← hqp]
      exact below v (by simp at hfields; omega) q.2 hread
    · cases hshape
  | _ =>
    obtain ⟨⟨cs, s⟩, hfinish, hcheck⟩ := bind_eq_ok.mp h
    obtain ⟨t, ht, rfl⟩ := map_eq_ok.mp hcheck
    obtain ⟨_, _, hcs, hs, hpair⟩ := both_eq_ok.mp (finish_eq_ok.mp hfinish).1
    cases hpair
    exact .scalar (held_of_readChecks hcs) (sound_of_readScalar hs ht)

theorem sound_of_read (v : Value) {r : Rule} (h : read fs v = .ok r) : r.Sound fs := by
  induction hn : sizeOf v using Nat.strongRecOn generalizing v r with
  | ind n ih =>
    unfold read at h
    split at h
    · rename_i entries
      split at h
      · cases h
      · rename_i kind _
        rw [under_eq_ok] at h
        refine sound_of_readNode (fun w hw r hr => ih (sizeOf w) ?_ w hr rfl) h
        simp at hn
        omega
    · cases h

end

end Rule

end Tablewright
