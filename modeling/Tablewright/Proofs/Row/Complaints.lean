import Tablewright.Proofs.Row.OneColumn

namespace Tablewright

mutual

/-- Rules without unions, whose objects have one rule for each name. -/
def Rule.Plain : Rule → Prop
  | .layer _ _ r | .array _ r => r.Plain
  | .scalar .. => True
  | .union .. => False
  | .object _ shape => (shape.map (·.1)).Nodup ∧ PlainIn shape

def PlainIn : List (String × Rule) → Prop
  | [] => True
  | (_, r) :: shape => r.Plain ∧ PlainIn shape

end

theorem plainIn_iff {shape : List (String × Rule)} : PlainIn shape ↔ ∀ c ∈ shape, c.2.Plain := by
  induction shape with
  | nil => simp [PlainIn]
  | cons c shape ih => rw [PlainIn, ih, List.forall_mem_cons]

/-- A refinement whose condition has no validation of its own: it refuses a value for one cause. -/
def Refinement.Simple (c : Refinement) : Prop :=
  ∀ v issues, c.condition.test v ≠ .error (.invalid issues)

namespace Run

theorem mapM_split {f : α → Run β} {left right : List α} {x : α} {calls later : Calls}
    {ys : List β} (h : (left ++ x :: right).mapM f calls = (.ok ys, later)) :
    ∃ lefts before y after rights, left.mapM f calls = (.ok lefts, before) ∧
      f x before = (.ok y, after) ∧ ys = lefts ++ y :: rights ∧ lefts.length = left.length := by
  obtain ⟨lefts, before, rest, hlefts, hrest, rfl⟩ := mapM_append_eq_ok h
  obtain ⟨y, after, rights, hy, -, rfl⟩ := mapM_cons_eq_ok hrest
  exact ⟨lefts, before, y, after, rights, hlefts, hy, rfl, length_of_mapM hlefts⟩

theorem exists_mapM_split {f : α → Run β} {xs : List α} {calls later : Calls}
    {lefts rights : List β} {y : β} (h : xs.mapM f calls = (.ok (lefts ++ y :: rights), later)) :
    ∃ left x right before after, xs = left ++ x :: right ∧
      left.mapM f calls = (.ok lefts, before) ∧ f x before = (.ok y, after) ∧
      lefts.length = left.length := by
  have hlength := length_of_mapM h
  rw [List.length_append, List.length_cons] at hlength
  have hlt : lefts.length < xs.length := by omega
  have hxs : xs = xs.take lefts.length ++ xs[lefts.length] :: xs.drop (lefts.length + 1) := by
    rw [List.getElem_cons_drop, List.take_append_drop]
  rw [hxs] at h
  obtain ⟨ls, before, z, after, rs, hls, hz, hsplit, hl⟩ := mapM_split h
  have hsame : lefts.length = ls.length := by
    rw [hl, List.length_take]
    omega
  obtain ⟨rfl, htail⟩ := List.append_inj hsplit hsame
  obtain ⟨rfl, -⟩ := List.cons.inj htail
  exact ⟨_, _, _, before, after, hxs, hls, hz, hl⟩

end Run

namespace Row

theorem complaints_map (f : α → β) (r : Except Issues α) : complaints (r.map f) = complaints r := by
  cases r <;> rfl

theorem complaints_under (step : Step) (r : Except Issues α) :
    complaints (Read.under step r) = (complaints r).under step := by
  cases r <;> rfl

theorem complaints_countGiven (j : Judgement) : complaints (countGiven j) = complaints j := by
  cases j <;> rfl

theorem complaints_ofObject (given : List String)
    (r : Except Issues (List (String × Value) × Fit)) :
    complaints (ofObject given r) = complaints r := by
  cases r <;> rfl

/-- A row is judged like an object of its columns, of which only the complaints and the acceptance
are kept. -/
theorem exists_judge_of_validate {m : Model} {entries : Entries} {calls later : Calls}
    {r : Except Issues (List (String × Value))}
    (h : m.validate (.dict entries) calls = (.ok r, later)) :
    ∃ result, judge (.object m.name m.fields) (.dict entries) calls = (.ok result, later) ∧
      complaints result = complaints r ∧ result.isOk = r.isOk := by
  obtain ⟨columns, mid, hcolumns, h⟩ := Run.bind_eq_ok.mp h
  cases h
  refine ⟨ofObject (givenFields m.fields entries) columns, ?_, ?_, ?_⟩
  · rw [judge_object]
    exact Run.bind_ok hcolumns
  · rw [complaints_ofObject, complaints_map]
  · cases columns <;> rfl

theorem complaints_joinParts (join : α → β → γ) (a : Except Issues (α × Fit))
    (b : Except Issues (β × Fit)) :
    complaints (joinParts join a b) = complaints a ++ complaints b := by
  cases a <;> cases b <;> simp [joinParts, complaints]

theorem complaints_joinAll (js : List (String × Judgement)) :
    complaints (joinAll js) = js.flatMap (complaints ·.2) := by
  induction js with
  | nil => rfl
  | cons p ps ih => rw [joinAll, complaints_joinParts, ih, List.flatMap_cons]

def joinItems (position : Nat) : List Judgement → Except Issues (List Value × Fit)
  | [] => .ok ([], .exact)
  | j :: js => joinParts (· :: ·) (Read.under (.index position) j) (joinItems (position + 1) js)

theorem judgeItems_eq (one : Value → Run Judgement) (position : Nat) (xs : List Value) :
    judgeItems one position xs = (do
      let results ← xs.mapM one
      return joinItems position results) := by
  induction xs generalizing position with
  | nil => rfl
  | cons x xs ih =>
    rw [judgeItems, List.mapM_cons, ih]
    simp only [bind_assoc, pure_bind, joinItems]

/-- A list is judged item by item, and told of what is wrong with each. -/
theorem exists_items_of_judge {s : Schema} {v : Value} {xs : List Value} {e : Exactness}
    {calls later : Calls} {j : Judgement} (hv : Coercion.toItems v = some (xs, e))
    (h : judge (.list s) v calls = (.ok j, later)) :
    ∃ js, xs.mapM (judge s) calls = (.ok js, later) ∧
      complaints j = complaints (joinItems 0 js) ∧ j.isOk = (joinItems 0 js).isOk := by
  rw [judge_list, hv] at h
  obtain ⟨items, last, hitems, h⟩ := Run.bind_eq_ok.mp h
  cases h
  rw [judgeItems_eq] at hitems
  obtain ⟨js, last, hjs, hitems⟩ := Run.bind_eq_ok.mp hitems
  cases hitems
  refine ⟨js, hjs, complaints_map _ _, ?_⟩
  cases joinItems 0 js <;> rfl

/-- An object is judged field by field, and told of what is wrong with each. -/
theorem exists_fields_of_judge {name : String} {fs : List (Head × Schema)} {entries : Entries}
    {calls later : Calls} {j : Judgement}
    (h : judge (.object name fs) (.dict entries) calls = (.ok j, later)) :
    ∃ js, fs.mapM (fun f => judgeField (judge f.2) f.1 entries) calls = (.ok js, later) ∧
      complaints j = complaints (joinAll ((fs.map (·.1.name.column)).zip js)) ∧
      j.isOk = (joinAll ((fs.map (·.1.name.column)).zip js)).isOk := by
  rw [judge_object] at h
  obtain ⟨columns, last, hcolumns, h⟩ := Run.bind_eq_ok.mp h
  cases h
  rw [judgeFields_eq] at hcolumns
  obtain ⟨js, last, hjs, hcolumns⟩ := Run.bind_eq_ok.mp hcolumns
  cases hcolumns
  refine ⟨js, hjs, complaints_ofObject _ _, ?_⟩
  cases joinAll ((fs.map (·.1.name.column)).zip js) <;> rfl

theorem mem_joinItems {position : Nat} {js : List Judgement} {i : Issue} :
    i ∈ complaints (joinItems position js) ↔ ∃ left j right, js = left ++ j :: right ∧
      ∃ k ∈ complaints j, i = k.under (.index (position + left.length : Nat)) := by
  induction js generalizing position with
  | nil =>
    constructor
    · rintro ⟨⟩
    · rintro ⟨left, j, right, h, -⟩
      cases left <;> cases h
  | cons j js ih =>
    rw [joinItems, complaints_joinParts, complaints_under, List.mem_append, ih]
    constructor
    · rintro (hi | ⟨left, k, right, rfl, x, hx, rfl⟩)
      · obtain ⟨k, hk, rfl⟩ := List.mem_map.mp hi
        exact ⟨[], j, js, rfl, k, hk, rfl⟩
      · refine ⟨j :: left, k, right, rfl, x, hx, ?_⟩
        rw [List.length_cons, Nat.add_assoc, Nat.add_comm 1]
    · rintro ⟨left, k, right, h, x, hx, rfl⟩
      cases left with
      | nil =>
        cases h
        exact .inl (List.mem_map.mpr ⟨x, hx, rfl⟩)
      | cons a left =>
        cases h
        refine .inr ⟨left, k, right, rfl, x, hx, ?_⟩
        rw [List.length_cons, Nat.add_assoc, Nat.add_comm 1]

theorem mem_joinAll {names : List String} {js : List Judgement} (hl : js.length = names.length)
    {i : Issue} :
    i ∈ complaints (joinAll (names.zip js)) ↔ ∃ left j right, js = left ++ j :: right ∧
      i ∈ complaints j := by
  have hsnd : (names.zip js).flatMap (complaints ·.2) = js.flatMap complaints := by
    rw [← List.flatMap_map, List.map_snd_zip (Nat.le_of_eq hl)]
  rw [complaints_joinAll, hsnd, List.mem_flatMap]
  constructor
  · rintro ⟨j, hj, hi⟩
    obtain ⟨left, right, rfl⟩ := List.append_of_mem hj
    exact ⟨left, j, right, rfl, hi⟩
  · rintro ⟨left, j, right, rfl, hi⟩
    exact ⟨j, by simp, hi⟩

theorem exists_of_judgeLeaf {s : Schema} {v : Value} {es : Issues} (hs : s.isLeaf = true)
    (h : judgeLeaf s v = .error es) : ∃ c, es = [.here c] := by
  have hsettle {α : Type} {wrap : α → Value} {against : α → Option Cause} {a : Coerced α}
      (h : settle wrap against a = .error es) : ∃ c, es = [.here c] := by
    unfold settle at h
    split at h
    · cases h
      exact ⟨_, rfl⟩
    · split at h
      · cases h
        exact ⟨_, rfl⟩
      · cases h
  cases s with
  | any => cases h
  | null =>
    rw [judgeLeaf] at h
    split at h
    · cases h
    · cases h
      exact ⟨_, rfl⟩
  | listed values =>
    rw [judgeLeaf, judgeListed] at h
    split at h
    · cases h
    · cases h
      exact ⟨_, rfl⟩
  | nullable | union | list | object | refined => cases hs
  | _ =>
    rw [judgeLeaf] at h
    exact hsettle h

/-- Complaints that name no place twice, and of which there are some where nothing is accepted. -/
structure Clean (r : Except Issues α) : Prop where
  once : ((complaints r).map (·.path)).Nodup
  blames : complaints r = [] → r.isOk = true

theorem clean_ok (a : α) : Clean (.ok a : Except Issues α) := ⟨List.nodup_nil, fun _ => rfl⟩

theorem clean_reject (c : Cause) : Clean (reject c) := ⟨List.nodup_singleton _, by rintro ⟨⟩⟩

theorem Clean.congr {r : Except Issues α} {result : Except Issues β} (h : Clean r)
    (hc : complaints result = complaints r) (hok : result.isOk = r.isOk) : Clean result :=
  ⟨hc ▸ h.once, fun hn => hok ▸ h.blames (hc ▸ hn)⟩

/-- Complaints whose paths all begin in the same way. -/
structure Owns (scope : Step → Prop) (r : Except Issues α) : Prop extends Clean r where
  begins : ∀ i ∈ complaints r, ∃ step path, i.path = step :: path ∧ scope step

theorem owns_ok (p : Step → Prop) (a : α) : Owns p (.ok a : Except Issues α) :=
  ⟨clean_ok a, by rintro i ⟨⟩⟩

theorem Owns.mono {p q : Step → Prop} {r : Except Issues α} (h : Owns p r)
    (hq : ∀ step, p step → q step) : Owns q r :=
  ⟨h.toClean, fun i hi => (h.begins i hi).imp fun _ ⟨path, hpath, hp⟩ => ⟨path, hpath, hq _ hp⟩⟩

theorem Owns.joinParts {p q : Step → Prop} {join : α → β → γ} {a : Except Issues (α × Fit)}
    {b : Except Issues (β × Fit)} (ha : Owns p a) (hb : Owns q b) (h : ∀ step, p step → ¬q step) :
    Owns (fun step => p step ∨ q step) (joinParts join a b) := by
  refine ⟨⟨?_, ?_⟩, ?_⟩
  · rw [complaints_joinParts, List.map_append, List.nodup_append]
    refine ⟨ha.once, hb.once, ?_⟩
    intro first hfirst second hsecond he
    obtain ⟨i, hi, rfl⟩ := List.mem_map.mp hfirst
    obtain ⟨k, hk, rfl⟩ := List.mem_map.mp hsecond
    obtain ⟨step, path, hpath, hp⟩ := ha.begins i hi
    obtain ⟨other, rest, hrest, hq⟩ := hb.begins k hk
    rw [hpath, hrest] at he
    obtain ⟨rfl, -⟩ := List.cons.inj he
    exact h step hp hq
  · intro hn
    rw [complaints_joinParts, List.append_eq_nil_iff] at hn
    have hoka := ha.blames hn.1
    have hokb := hb.blames hn.2
    cases a with
    | error es => cases hoka
    | ok x =>
      cases b with
      | error es => cases hokb
      | ok y => rfl
  · intro i hi
    rw [complaints_joinParts, List.mem_append] at hi
    obtain hi | hi := hi
    · obtain ⟨step, path, hpath, hp⟩ := ha.begins i hi
      exact ⟨step, path, hpath, .inl hp⟩
    · obtain ⟨step, path, hpath, hq⟩ := hb.begins i hi
      exact ⟨step, path, hpath, .inr hq⟩

theorem Clean.under {r : Except Issues α} (h : Clean r) (step : Step) :
    Owns (· = step) (Read.under step r) := by
  have hmap : (complaints (Read.under step r)).map (·.path) =
      ((complaints r).map (·.path)).map (step :: ·) := by
    rw [complaints_under, Issues.under, List.map_map, List.map_map]
    rfl
  refine ⟨⟨?_, ?_⟩, ?_⟩
  · rw [hmap]
    exact h.once.map List.cons_injective
  · intro hn
    rw [complaints_under] at hn
    have hok := h.blames (List.map_eq_nil_iff.mp hn)
    cases r with
    | ok a => rfl
    | error es => cases hok
  · intro i hi
    rw [complaints_under] at hi
    obtain ⟨k, -, rfl⟩ := List.mem_map.mp hi
    exact ⟨step, k.path, rfl, rfl⟩

def Tidy (s : Schema) : Prop :=
  ∀ v calls r later, judge s v calls = (.ok r, later) → Clean r

theorem tidy_leaf {s : Schema} (hs : s.isLeaf = true) : Tidy s := by
  intro v calls r later h
  rw [judge_leaf hs] at h
  cases h
  cases hj : judgeLeaf s v with
  | ok b => exact clean_ok b
  | error es =>
    obtain ⟨c, rfl⟩ := exists_of_judgeLeaf hs hj
    exact clean_reject c

theorem tidy_nullable {s : Schema} (hs : Tidy s) : Tidy (.nullable s) := by
  intro v calls r later h
  rw [judge_nullable] at h
  split at h
  · cases h
    exact clean_ok _
  · exact hs v calls r later h

theorem tidy_refined {s : Schema} (hs : Tidy s) {c : Refinement} (hc : c.Simple) :
    Tidy (.refined s c) := by
  intro v calls r later h
  rw [judge_refined] at h
  obtain ⟨inner, mid, hj, h⟩ := Run.bind_eq_ok.mp h
  cases inner with
  | error es =>
    cases h
    exact hs v calls _ _ hj
  | ok b =>
    obtain rfl | ⟨cause, rfl⟩ | ⟨issues, ht, -⟩ := cases_of_judgeCheck h
    · exact clean_ok _
    · exact clean_reject cause
    · exact absurd ht (hc b.1 issues)

theorem owns_joinItems {js : List Judgement} (h : ∀ j ∈ js, Clean j) (position : Nat) :
    Owns (fun step => ∃ k : Nat, position ≤ k ∧ step = .index k) (joinItems position js) := by
  induction js generalizing position with
  | nil => exact owns_ok _ _
  | cons j js ih =>
    have hj := (h j List.mem_cons_self).under (.index position)
    have hjs := ih (fun k hk => h k (List.mem_cons_of_mem j hk)) (position + 1)
    refine (hj.joinParts hjs ?_).mono ?_
    · rintro step rfl ⟨k, hk, he⟩
      cases he
      omega
    · rintro step (rfl | ⟨k, hk, rfl⟩)
      · exact ⟨position, Nat.le_refl position, rfl⟩
      · exact ⟨k, by omega, rfl⟩

theorem tidy_list {s : Schema} (hs : Tidy s) : Tidy (.list s) := by
  intro v calls r later h
  cases hv : Coercion.toItems v with
  | none =>
    rw [judge_list, hv] at h
    cases h
    exact clean_reject _
  | some found =>
    obtain ⟨js, hjs, hcomplaints, hok⟩ := exists_items_of_judge hv h
    have hall : ∀ j ∈ js, Clean j := by
      intro j hj
      obtain ⟨lefts, rights, rfl⟩ := List.append_of_mem hj
      obtain ⟨left, x, right, before, after, -, -, hx, -⟩ := Run.exists_mapM_split hjs
      exact hs x before j after hx
    exact (owns_joinItems hall 0).toClean.congr hcomplaints hok

/-- The keys that a field is read from, and under which it is found missing. -/
def FieldName.Names (n : FieldName) (step : Step) : Prop :=
  step = .key n.column ∨ step = .key n.field

def FieldName.Apart (m n : FieldName) : Prop := ∀ step, m.Names step → ¬n.Names step

theorem pairwise_apart_fieldNames {columns : List String} (hn : columns.Nodup) :
    (fieldNames columns).Pairwise FieldName.Apart := by
  have hcolumns : (fieldNames columns).Pairwise fun m n => m.column ≠ n.column := by
    rw [← List.pairwise_map, map_column_fieldNames]
    exact hn
  have hfields : (fieldNames columns).Pairwise fun m n => m.field ≠ n.field :=
    List.pairwise_map.mp (nodup_fieldNames hn)
  -- A field that is named like any column is named like its own.
  have hcross {m n : FieldName} (hm : m ∈ fieldNames columns) (hn : n ∈ fieldNames columns)
      (h : m.column = n.field) : m.column = n.column := by
    have hmem : m.column ∈ columns := by
      rw [← map_column_fieldNames columns]
      exact List.mem_map_of_mem hm
    have hkey := key_eq_none_of_mem hn (h ▸ hmem)
    rw [h, FieldName.column, hkey, Option.getD_none]
  refine (hcolumns.and hfields).imp_of_mem ?_
  rintro m n hm hn ⟨hcolumn, hfield⟩ step (rfl | rfl) (h | h)
  · exact hcolumn (Step.key.inj h)
  · exact hcolumn (hcross hm hn (Step.key.inj h))
  · exact hcolumn (hcross hn hm (Step.key.inj h).symm).symm
  · exact hfield (Step.key.inj h)

theorem owns_judgeField {f : Head × Schema} (hf : Tidy f.2) {entries : Entries}
    {calls later : Calls} {j : Judgement}
    (h : judgeField (judge f.2) f.1 entries calls = (.ok j, later)) : Owns f.1.name.Names j := by
  rw [judgeField] at h
  cases hx : findField f.1.name entries with
  | none =>
    rw [hx, judgeAbsent] at h
    cases ha : f.1.absence with
    | refused =>
      rw [ha] at h
      cases h
      refine ⟨⟨List.nodup_singleton _, by rintro ⟨⟩⟩, fun i hi => ?_⟩
      cases List.mem_singleton.mp hi
      exact ⟨_, [], rfl, .inl rfl⟩
    | value w =>
      rw [ha] at h
      cases h
      exact owns_ok _ _
    | factory g =>
      rw [ha] at h
      obtain ⟨w, mid, -, h⟩ := Run.bind_eq_ok.mp h
      cases h
      exact owns_ok _ _
  | some found =>
    obtain ⟨key, x⟩ := found
    rw [hx] at h
    obtain ⟨result, mid, hr, h⟩ := Run.bind_eq_ok.mp h
    cases h
    have hclean : Clean (countGiven result) := by
      refine (hf x calls result _ hr).congr (complaints_countGiven result) ?_
      cases result <;> rfl
    refine (hclean.under (.key key)).mono ?_
    rintro step rfl
    exact (findField_eq_some hx).2.imp (congrArg Step.key) (congrArg Step.key)

/-- No two of the fields complain about one place, as no two of them share a key. -/
theorem owns_fields {fs : List (Head × Schema)} (hfs : ∀ f ∈ fs, Tidy f.2)
    (hn : (fs.map (·.1.name)).Pairwise FieldName.Apart) {entries : Entries} {calls later : Calls}
    {js : List Judgement}
    (h : fs.mapM (fun f => judgeField (judge f.2) f.1 entries) calls = (.ok js, later)) :
    Owns (fun step => ∃ n ∈ fs.map (·.1.name), n.Names step)
      (joinAll ((fs.map (·.1.name.column)).zip js)) := by
  induction fs generalizing calls js with
  | nil => exact owns_ok _ _
  | cons f fs ih =>
    obtain ⟨j, mid, rest, hj, hrest, rfl⟩ := Run.mapM_cons_eq_ok h
    obtain ⟨hapart, hpairwise⟩ := List.pairwise_cons.mp hn
    have hfirst := owns_judgeField (hfs f List.mem_cons_self) hj
    have hothers := ih (fun g hg => hfs g (List.mem_cons_of_mem f hg)) hpairwise hrest
    refine (hfirst.joinParts hothers ?_).mono ?_
    · rintro step hstep ⟨n, hm, hother⟩
      exact hapart n hm step hstep hother
    · rintro step (hstep | ⟨n, hm, hstep⟩)
      · exact ⟨f.1.name, List.mem_cons_self, hstep⟩
      · exact ⟨n, List.mem_cons_of_mem _ hm, hstep⟩

theorem tidy_object (name : String) {fs : List (Head × Schema)} (hfs : ∀ f ∈ fs, Tidy f.2)
    (hn : (fs.map (·.1.name)).Pairwise FieldName.Apart) : Tidy (.object name fs) := by
  intro v calls r later h
  cases v with
  | dict entries =>
    obtain ⟨js, hjs, hcomplaints, hok⟩ := exists_fields_of_judge h
    exact (owns_fields hfs hn hjs).toClean.congr hcomplaints hok
  | _ =>
    rw [judge_object] at h
    cases h
    exact clean_reject _

theorem tidy_orNull {s : Schema} (hs : Tidy s) : Tidy s.orNull := by
  cases s with
  | null | nullable => exact hs
  | _ => exact tidy_nullable hs

theorem tidy_refinedBy {s : Schema} (hs : Tidy s) {checks : List Refinement}
    (hc : ∀ c ∈ checks, c.Simple) : Tidy (s.refinedBy checks) := by
  induction checks generalizing s with
  | nil => exact hs
  | cons c cs ih =>
    obtain ⟨hfirst, hrest⟩ := List.forall_mem_cons.mp hc
    exact ih (tidy_refined hs hfirst) hrest

mutual

theorem tidy_schema? : ∀ (name : String) (r : Rule) {s : Schema}, r.Plain →
    (∀ c ∈ r.everyCheck, c.Simple) → schema? name r = some s → Tidy s
  | name, .layer checks l r, s, hr, hc, h => by
    rw [Rule.everyCheck, List.forall_mem_append] at hc
    rw [schema?_layer] at h
    obtain ⟨t, ht, rfl⟩ := Option.map_eq_some_iff.mp h
    have htidy := tidy_schema? name r hr hc.2 ht
    refine tidy_refinedBy ?_ hc.1
    split
    · exact tidy_orNull htidy
    · exact htidy
  | name, .scalar checks scalar, s, _, hc, h => by
    rw [schema?] at h
    obtain ⟨t, ht, rfl⟩ := Option.map_eq_some_iff.mp h
    exact tidy_refinedBy (tidy_leaf (isLeaf_scalarSchema? ht)) hc
  | name, .union checks rs, s, hr, _, _ => hr.elim
  | name, .array checks r, s, hr, hc, h => by
    rw [Rule.everyCheck, List.forall_mem_append] at hc
    rw [schema?] at h
    obtain ⟨t, ht, rfl⟩ := Option.map_eq_some_iff.mp h
    exact tidy_refinedBy (tidy_list (tidy_schema? (name ++ "Item") r hr hc.2 ht)) hc.1
  | name, .object checks shape, s, hr, hc, h => by
    rw [Rule.everyCheck, List.forall_mem_append] at hc
    rw [schema?] at h
    obtain ⟨fs, hfs, rfl⟩ := Option.map_eq_some_iff.mp h
    have hn : (fs.map (·.1.name)).Pairwise FieldName.Apart := by
      rw [names_of_fields? hfs]
      exact pairwise_apart_fieldNames hr.1
    exact tidy_refinedBy (tidy_object name (tidy_fields? name shape _ hr.2 hc.2 hfs) hn) hc.1

theorem tidy_fields? : ∀ (model : String) (shape : List (String × Rule))
    (names : List FieldName) {fs : List (Head × Schema)}, PlainIn shape →
    (∀ c ∈ Rule.everyCheckIn shape, c.Simple) →
    fields? model shape names = some fs → ∀ f ∈ fs, Tidy f.2
  | model, [], names, fs, _, _, h => by
    rw [fields?] at h
    · cases h
      rintro f ⟨⟩
    · rintro c r cs n ns ⟨⟩
  | model, (column, r) :: rest, names, fs, hr, hc, h => by
    rw [Rule.everyCheckIn, List.forall_mem_append] at hc
    cases names with
    | nil =>
      rw [fields?] at h
      · cases h
        rintro f ⟨⟩
      · rintro c s cs n ns - ⟨⟩
    | cons n ns =>
      rw [fields?] at h
      split at h
      · rename_i s gs hs hgs
        cases h
        exact List.forall_mem_cons.mpr ⟨tidy_schema? (model ++ pascal column) r hr.1 hc.1 hs,
          tidy_fields? model rest ns hr.2 hc.2 hgs⟩
      · cases h

end

end Row

end Tablewright
