import Tablewright.Proofs.Row.LeafAgain
import Tablewright.Proofs.Row.Null

namespace Tablewright

/-- A refinement that accepts both or neither of two values that are written out alike. -/
def Refinement.Blind (c : Refinement) : Prop :=
  ∀ v w, Row.dumped v = Row.dumped w → c.condition.test v = .ok true → c.condition.test w = .ok true

namespace Row

mutual

/-- Whether nothing in a value is a record, as in all that comes from outside. -/
def recordFree : Value → Bool
  | .record .. => false
  | .list xs | .tuple xs | .set xs => areRecordFree xs
  | .dict es => entriesRecordFree es
  | _ => true

def areRecordFree : List Value → Bool
  | [] => true
  | v :: vs => recordFree v && areRecordFree vs

def entriesRecordFree : Entries → Bool
  | [] => true
  | (_, v) :: es => recordFree v && entriesRecordFree es

end

mutual

theorem holdsNoRecord_of_recordFree : ∀ v : Value, recordFree v = true → holdsNoRecord v = true
  | .record .., h => nomatch h
  | .list xs, h | .tuple xs, h => by
    rw [recordFree] at h
    exact holdNoRecord_of_areRecordFree xs h
  | .null, _ | .bool _, _ | .int _, _ | .float _, _ | .text _, _ | .bytes _, _ | .date _, _
  | .datetime _, _ | .time _, _ | .duration _, _ | .decimal _, _ | .member _, _ | .set _, _
  | .dict _, _ | .function _, _ => rfl

theorem holdNoRecord_of_areRecordFree : ∀ vs : List Value, areRecordFree vs = true →
    holdNoRecord vs = true
  | [], _ => rfl
  | v :: vs, h => by
    rw [areRecordFree, Bool.and_eq_true] at h
    rw [holdNoRecord, holdsNoRecord_of_recordFree v h.1, holdNoRecord_of_areRecordFree vs h.2]
    rfl

end

theorem dumped_of_recordFree {v : Value} (h : recordFree v = true) : dumped v = v :=
  dumped_eq_self v (holdsNoRecord_of_recordFree v h)

theorem recordFree_of_toItems {v : Value} (h : recordFree v = true) {xs : List Value}
    {e : Exactness} (hi : Coercion.toItems v = some (xs, e)) : areRecordFree xs = true := by
  cases v with
  | list ys | tuple ys | set ys =>
    cases hi
    rwa [recordFree] at h
  | _ => cases hi

theorem recordFree_of_field? {entries : Entries} (h : entriesRecordFree entries = true)
    {name : String} {v : Value} (hf : Value.field? entries name = some v) :
    recordFree v = true := by
  induction entries with
  | nil => cases hf
  | cons e es ih =>
    obtain ⟨k, w⟩ := e
    rw [entriesRecordFree, Bool.and_eq_true] at h
    rw [Value.field?, List.find?_cons] at hf
    split at hf
    · cases hf
      exact h.1
    · exact ih h.2 hf

theorem recordFree_of_findField {entries : Entries} (h : entriesRecordFree entries = true)
    {n : FieldName} {key : String} {v : Value} (hf : findField n entries = some (key, v)) :
    recordFree v = true :=
  recordFree_of_field? h (findField_eq_some hf).1

mutual

theorem dumped_dumped : ∀ v : Value, dumped (dumped v) = dumped v
  | .list xs => by rw [dumped, dumped, dumpedItems_dumpedItems xs]
  | .tuple xs => by rw [dumped, dumped, dumpedItems_dumpedItems xs]
  | .null | .bool _ | .int _ | .float _ | .text _ | .bytes _ | .date _ | .datetime _ | .time _
  | .duration _ | .decimal _ | .member _ | .set _ | .dict _ | .record .. | .function _ => by
    simp only [dumped]

theorem dumpedItems_dumpedItems : ∀ vs : List Value, dumpedItems (dumpedItems vs) = dumpedItems vs
  | [] => rfl
  | v :: vs => by
    rw [dumpedItems, dumpedItems, dumped_dumped v, dumpedItems_dumpedItems vs]

end

/-- A value that a schema accepts unchanged, whatever has been called before. -/
def Keeps (s : Schema) (v : Value) : Prop :=
  ∀ calls, ∃ a fit later, judge s v calls = (.ok (.ok (a, fit)), later) ∧ dumped a = v

/-- A schema that makes again whatever it makes of a value from outside. -/
def Again (s : Schema) : Prop :=
  ∀ v, recordFree v = true → ∀ calls w fit later, judge s v calls = (.ok (.ok (w, fit)), later) →
    Keeps s (dumped w)

/-- Such a schema, which makes no records where it is said to be flat. -/
structure Fixed (flat : Bool) (s : Schema) : Prop where
  again : Again s
  stays : flat = true → ∀ v, recordFree v = true → ∀ calls w fit later,
    judge s v calls = (.ok (.ok (w, fit)), later) → recordFree w = true

theorem Keeps.dumped_eq {s : Schema} {v : Value} (h : Keeps s v) : dumped v = v := by
  obtain ⟨a, -, -, -, ha⟩ := h []
  rw [← ha, dumped_dumped]

theorem judgeLeaf_again {s : Schema} (hs : s.isLeaf = true) {v w : Value} {fit : Fit}
    (hv : recordFree v = true) (h : judgeLeaf s v = .ok (w, fit)) :
    recordFree w = true ∧ ∃ again, judgeLeaf s w = .ok (w, again) := by
  cases s with
  | any =>
    cases h
    exact ⟨hv, _, rfl⟩
  | null =>
    rw [judgeLeaf] at h
    split at h
    · cases h
      exact ⟨rfl, _, rfl⟩
    · cases h
  | listed values =>
    rw [judgeLeaf, judgeListed] at h
    split at h
    · rename_i l hl
      cases h
      refine ⟨by cases l <;> rfl, .exact, ?_⟩
      rw [judgeLeaf, judgeListed, findListed_again hl]
    · cases h
  | nullable | union | list | object | refined => cases hs
  | text | int | float | bool | bytes | date | datetime | duration =>
    rw [judgeLeaf] at h
    obtain ⟨⟨a, rfl⟩, hagain⟩ := settle_again (fun _ => rfl) h
    exact ⟨rfl, _, hagain⟩

theorem fixed_leaf {s : Schema} (hs : s.isLeaf = true) : Fixed true s := by
  have hgo {v w : Value} {fit : Fit} {calls later : Calls} (hv : recordFree v = true)
      (h : judge s v calls = (.ok (.ok (w, fit)), later)) :
      recordFree w = true ∧ ∃ again, judgeLeaf s w = .ok (w, again) := by
    rw [judge_leaf hs] at h
    injection h with h
    exact judgeLeaf_again hs hv (Except.ok.inj h)
  constructor
  · intro v hv calls w fit later h calls'
    obtain ⟨hw, again, hj⟩ := hgo hv h
    rw [dumped_of_recordFree hw]
    refine ⟨w, again, calls', ?_, dumped_of_recordFree hw⟩
    rw [judge_leaf hs, hj]
    rfl
  · intro _ v hv calls w fit later h
    exact (hgo hv h).1

theorem keeps_orNull {s : Schema} {v : Value} (h : Keeps s v) : Keeps s.orNull v := by
  intro calls
  cases hv : v.isNull with
  | true => exact ⟨.null, _, _, judge_orNull_null s hv calls, (Value.isNull_iff.mp hv).symm⟩
  | false =>
    obtain ⟨a, fit, later, hj, ha⟩ := h calls
    exact ⟨a, fit, later, by rw [judge_orNull s hv, hj], ha⟩

theorem keeps_null (s : Schema) : Keeps s.orNull .null :=
  fun calls => ⟨.null, _, _, judge_orNull_null s rfl calls, rfl⟩

theorem fixed_orNull {flat : Bool} {s : Schema} (hs : Fixed flat s) : Fixed flat s.orNull := by
  have hgo {v w : Value} {fit : Fit} {calls later : Calls}
      (h : judge s.orNull v calls = (.ok (.ok (w, fit)), later)) :
      w = .null ∨ judge s v calls = (.ok (.ok (w, fit)), later) := by
    cases hv : v.isNull with
    | true =>
      rw [judge_orNull_null s hv] at h
      cases h
      exact .inl rfl
    | false => exact .inr (judge_orNull s hv ▸ h)
  constructor
  · intro v hv calls w fit later h
    obtain rfl | h := hgo h
    · exact keeps_null s
    · exact keeps_orNull (hs.again v hv calls w fit later h)
  · intro hflat v hv calls w fit later h
    obtain rfl | h := hgo h
    · rfl
    · exact hs.stays hflat v hv calls w fit later h

/-- A refinement is passed again: where there are no records, what comes again is the same value,
and elsewhere it is written out alike. -/
theorem fixed_refined {flat : Bool} {s : Schema} (hs : Fixed flat s) {c : Refinement}
    (hc : flat = true ∨ c.Blind) : Fixed flat (.refined s c) := by
  have hgo {v w : Value} {fit : Fit} {calls later : Calls}
      (h : judge (.refined s c) v calls = (.ok (.ok (w, fit)), later)) :
      ∃ mid, judge s v calls = (.ok (.ok (w, fit)), mid) ∧ c.condition.test w = .ok true := by
    rw [judge_refined] at h
    obtain ⟨inner, mid, hj, h⟩ := Run.bind_eq_ok.mp h
    cases inner with
    | error es => cases h
    | ok b =>
      obtain ⟨haccepts, hw, -⟩ := judgeCheck_eq_ok.mp h
      cases hw
      exact ⟨mid, hj, haccepts⟩
  constructor
  · intro v hv calls w fit later h calls'
    obtain ⟨mid, hj, haccepts⟩ := hgo h
    obtain ⟨a, again, last, hagain, ha⟩ := hs.again v hv calls w fit mid hj calls'
    refine ⟨a, again, c.condition.slot :: last, ?_, ha⟩
    have hpass : c.condition.test a = .ok true := by
      obtain hflat | hblind := hc
      · have hw := hs.stays hflat v hv calls w fit mid hj
        rw [dumped_of_recordFree hw] at hagain ha
        have hfree := hs.stays hflat w hw calls' a again last hagain
        rw [dumped_of_recordFree hfree] at ha
        rwa [ha]
      · exact hblind w a ha.symm haccepts
    rw [judge_refined, Run.bind_ok hagain]
    exact judgeCheck_eq_ok.mpr ⟨hpass, rfl, rfl⟩
  · intro hflat v hv calls w fit later h
    obtain ⟨mid, hj, -⟩ := hgo h
    exact hs.stays hflat v hv calls w fit mid hj

theorem fixed_refinedBy {flat : Bool} {s : Schema} (hs : Fixed flat s) {checks : List Refinement}
    (hc : flat = true ∨ ∀ c ∈ checks, c.Blind) : Fixed flat (s.refinedBy checks) := by
  induction checks generalizing s with
  | nil => exact hs
  | cons c cs ih =>
    exact ih (fixed_refined hs (hc.imp id fun h => h c List.mem_cons_self))
      (hc.imp id fun h d hd => h d (List.mem_cons_of_mem c hd))

theorem joinParts_eq_ok {join : α → β → γ} {a : Except Issues (α × Fit)}
    {b : Except Issues (β × Fit)} {c : γ} {fit : Fit} :
    joinParts join a b = .ok (c, fit) ↔
      ∃ x f y g, a = .ok (x, f) ∧ b = .ok (y, g) ∧ c = join x y ∧ fit = f.both g := by
  cases a with
  | error es => cases b <;> simp [joinParts]
  | ok p =>
    obtain ⟨x, f⟩ := p
    cases b with
    | error es => simp [joinParts]
    | ok q =>
      obtain ⟨y, g⟩ := q
      simp [joinParts, eq_comm]

theorem judgeItems_cons_eq_ok {one : Value → Run Judgement} {position : Nat} {v : Value}
    {vs ws : List Value} {fit : Fit} {calls later : Calls} :
    judgeItems one position (v :: vs) calls = (.ok (.ok (ws, fit)), later) ↔
      ∃ w f mid rest g, one v calls = (.ok (.ok (w, f)), mid) ∧
        judgeItems one (position + 1) vs mid = (.ok (.ok (rest, g)), later) ∧
        ws = w :: rest ∧ fit = f.both g := by
  rw [judgeItems]
  constructor
  · intro h
    obtain ⟨first, mid, hfirst, h⟩ := Run.bind_eq_ok.mp h
    obtain ⟨rest, last, hrest, h⟩ := Run.bind_eq_ok.mp h
    rw [Run.pure_apply, Prod.mk.injEq] at h
    obtain ⟨hjoin, rfl⟩ := h
    obtain ⟨w, f, ws, g, hw, rfl, rfl, rfl⟩ := joinParts_eq_ok.mp (Except.ok.inj hjoin)
    rw [Read.under_eq_ok] at hw
    subst hw
    exact ⟨w, f, mid, ws, g, hfirst, hrest, rfl, rfl⟩
  · rintro ⟨w, f, mid, rest, g, hfirst, hrest, rfl, rfl⟩
    rw [Run.bind_ok hfirst, Run.bind_ok hrest]
    rfl

theorem recordFree_of_judgeItems {s : Schema} (hs : Fixed true s) {vs ws : List Value}
    (hv : areRecordFree vs = true) {position : Nat} {fit : Fit} {calls later : Calls}
    (h : judgeItems (judge s) position vs calls = (.ok (.ok (ws, fit)), later)) :
    areRecordFree ws = true := by
  induction vs generalizing ws position fit calls with
  | nil =>
    cases h
    rfl
  | cons v vs ih =>
    rw [areRecordFree, Bool.and_eq_true] at hv
    obtain ⟨w, f, mid, rest, g, hw, hrest, rfl, -⟩ := judgeItems_cons_eq_ok.mp h
    rw [areRecordFree, hs.stays rfl v hv.1 calls w f mid hw, ih hv.2 hrest]
    rfl

theorem judgeItems_again {s : Schema} (hs : Again s) {vs ws : List Value}
    (hv : areRecordFree vs = true) {position : Nat} {fit : Fit} {calls later : Calls}
    (h : judgeItems (judge s) position vs calls = (.ok (.ok (ws, fit)), later))
    (start : Nat) (calls' : Calls) :
    ∃ as again last, judgeItems (judge s) start (dumpedItems ws) calls' =
      (.ok (.ok (as, again)), last) ∧ dumpedItems ws = dumpedItems as := by
  induction vs generalizing ws position start fit calls calls' with
  | nil =>
    cases h
    exact ⟨[], _, _, rfl, rfl⟩
  | cons v vs ih =>
    rw [areRecordFree, Bool.and_eq_true] at hv
    obtain ⟨w, f, mid, rest, g, hw, hrest, rfl, -⟩ := judgeItems_cons_eq_ok.mp h
    obtain ⟨a, fa, next, ha, hsame⟩ := hs v hv.1 calls w f mid hw calls'
    obtain ⟨as, fas, last, has, hdumped⟩ := ih hv.2 hrest (start + 1) next
    refine ⟨a :: as, _, last, judgeItems_cons_eq_ok.mpr ⟨a, fa, next, as, fas, ha, has, rfl, rfl⟩,
      ?_⟩
    rw [dumpedItems, dumpedItems, hsame, hdumped]

theorem fixed_list {flat : Bool} {s : Schema} (hs : Fixed flat s) : Fixed flat (.list s) := by
  have hgo {v w : Value} {fit : Fit} {calls later : Calls} (hv : recordFree v = true)
      (h : judge (.list s) v calls = (.ok (.ok (w, fit)), later)) :
      ∃ xs ws f mid, areRecordFree xs = true ∧ w = .list ws ∧
        judgeItems (judge s) 0 xs calls = (.ok (.ok (ws, f)), mid) := by
    rw [judge_list] at h
    split at h
    · cases h
    · rename_i xs e hitems
      obtain ⟨items, mid, hj, h⟩ := Run.bind_eq_ok.mp h
      cases items with
      | error es => cases h
      | ok b =>
        cases h
        exact ⟨xs, b.1, b.2, _, recordFree_of_toItems hv hitems, rfl, hj⟩
  constructor
  · intro v hv calls w fit later h calls'
    obtain ⟨xs, ws, f, mid, hxs, rfl, hj⟩ := hgo hv h
    obtain ⟨as, again, last, has, hdumped⟩ := judgeItems_again hs.again hxs hj 0 calls'
    refine ⟨.list as, (Fit.ofExactness .exact).both again, last, ?_, ?_⟩
    · rw [judge_list, dumped]
      exact Run.bind_ok has
    · rw [dumped, dumped, hdumped]
  · rintro rfl v hv calls w fit later h
    obtain ⟨xs, ws, f, mid, hxs, rfl, hj⟩ := hgo hv h
    rw [recordFree]
    exact recordFree_of_judgeItems hs hxs hj

/-- A field that accepts again what it has accepted, and also what stands for its absence. -/
structure FixedField (f : Head × Schema) : Prop where
  again : Again f.2
  keeps : ∀ v, f.1.absence = .value v → Keeps f.2 v
  calls : ∀ g, f.1.absence ≠ .factory g

theorem keeps_judgeField {f : Head × Schema} (hf : FixedField f) {entries : Entries}
    (he : entriesRecordFree entries = true) {calls later : Calls} {v : Value} {fit : Fit}
    (h : judgeField (judge f.2) f.1 entries calls = (.ok (.ok (v, fit)), later)) :
    Keeps f.2 (dumped v) := by
  rw [judgeField] at h
  cases hfind : findField f.1.name entries with
  | none =>
    rw [hfind, judgeAbsent] at h
    cases ha : f.1.absence with
    | refused =>
      rw [ha] at h
      cases h
    | value w =>
      rw [ha] at h
      cases h
      have hk := hf.keeps v ha
      rwa [hk.dumped_eq]
    | factory g => exact absurd ha (hf.calls g)
  | some found =>
    obtain ⟨key, x⟩ := found
    rw [hfind] at h
    obtain ⟨j, mid, hj, h⟩ := Run.bind_eq_ok.mp h
    cases j with
    | error es => cases h
    | ok b =>
      cases h
      exact hf.again x (recordFree_of_findField he hfind) calls _ _ _ hj

theorem judgeField_given {h : Head} {entries : Entries} {v : Value}
    (hv : Value.field? entries h.name.column = some v) {one : Value → Run Judgement}
    {calls later : Calls} {a : Value} {fit : Fit} (hj : one v calls = (.ok (.ok (a, fit)), later)) :
    ∃ again, judgeField one h entries calls = (.ok (.ok (a, again)), later) := by
  refine ⟨⟨fit.exactness, Fit.addGiven (some 1) fit.given⟩, ?_⟩
  rw [judgeField, findField, hv]
  exact Run.bind_ok hj

theorem judgeFields_cons_eq_ok {f : Head × Schema} {fs : List (Head × Schema)}
    {entries : Entries} {columns : List (String × Value)} {fit : Fit} {calls later : Calls} :
    judgeFields (f :: fs) entries calls = (.ok (.ok (columns, fit)), later) ↔
      ∃ v g mid rest r, judgeField (judge f.2) f.1 entries calls = (.ok (.ok (v, g)), mid) ∧
        judgeFields fs entries mid = (.ok (.ok (rest, r)), later) ∧
        columns = (f.1.name.column, v) :: rest ∧ fit = g.both r := by
  rw [judgeFields_cons]
  constructor
  · intro h
    obtain ⟨first, mid, hfirst, h⟩ := Run.bind_eq_ok.mp h
    obtain ⟨rest, last, hrest, h⟩ := Run.bind_eq_ok.mp h
    rw [Run.pure_apply, Prod.mk.injEq] at h
    obtain ⟨hjoin, rfl⟩ := h
    obtain ⟨v, g, columns, r, rfl, rfl, rfl, rfl⟩ := joinParts_eq_ok.mp (Except.ok.inj hjoin)
    exact ⟨v, g, mid, columns, r, hfirst, hrest, rfl, rfl⟩
  · rintro ⟨v, g, mid, rest, r, hfirst, hrest, rfl, rfl⟩
    rw [Run.bind_ok hfirst, Run.bind_ok hrest]
    rfl

theorem names_of_judgeFields {fs : List (Head × Schema)} {entries : Entries}
    {columns : List (String × Value)} {fit : Fit} {calls later : Calls}
    (h : judgeFields fs entries calls = (.ok (.ok (columns, fit)), later)) :
    columns.map (·.1) = fs.map (·.1.name.column) := by
  induction fs generalizing columns fit calls with
  | nil =>
    rw [judgeFields_nil] at h
    cases h
    rfl
  | cons f fs ih =>
    obtain ⟨v, g, mid, rest, r, -, hrest, rfl, -⟩ := judgeFields_cons_eq_ok.mp h
    rw [List.map_cons, List.map_cons, ih hrest]

theorem judgeFields_again {fs : List (Head × Schema)} (hf : ∀ f ∈ fs, FixedField f)
    {entries : Entries} (he : entriesRecordFree entries = true) {columns : List (String × Value)}
    {fit : Fit} {calls later : Calls}
    (h : judgeFields fs entries calls = (.ok (.ok (columns, fit)), later)) {row : Entries}
    (hrow : ∀ p ∈ columns, Value.field? row p.1 = some (dumped p.2)) (calls' : Calls) :
    ∃ cs again last, judgeFields fs row calls' = (.ok (.ok (cs, again)), last) ∧
      dumpedFields columns = dumpedFields cs := by
  induction fs generalizing columns fit calls calls' with
  | nil =>
    rw [judgeFields_nil] at h ⊢
    cases h
    exact ⟨[], _, _, rfl, rfl⟩
  | cons f fs ih =>
    obtain ⟨v, g, mid, rest, r, hfirst, hrest, rfl, -⟩ := judgeFields_cons_eq_ok.mp h
    obtain ⟨a, fa, next, ha, hdumped⟩ :=
      keeps_judgeField (hf f List.mem_cons_self) he hfirst calls'
    obtain ⟨again, hagain⟩ := judgeField_given (hrow _ List.mem_cons_self) ha
    obtain ⟨cs, more, last, hcs, hsame⟩ := ih (fun k hk => hf k (List.mem_cons_of_mem f hk)) hrest
      (fun p hp => hrow p (List.mem_cons_of_mem _ hp)) next
    refine ⟨(f.1.name.column, a) :: cs, _, last,
      judgeFields_cons_eq_ok.mpr ⟨a, again, next, cs, more, hagain, hcs, rfl, rfl⟩, ?_⟩
    rw [dumpedFields, dumpedFields, hdumped, hsame]

theorem field?_dumpedFields {columns : List (String × Value)} (hn : (columns.map (·.1)).Nodup)
    {p : String × Value} (hp : p ∈ columns) :
    Value.field? (dumpedFields columns) p.1 = some (dumped p.2) := by
  induction columns with
  | nil => cases hp
  | cons c cs ih =>
    obtain ⟨hc, hcs⟩ := List.nodup_cons.mp hn
    obtain rfl | hp := List.mem_cons.mp hp
    · have hself : (Value.text p.1).isText p.1 = true := beq_self_eq_true p.1
      rw [dumpedFields, Value.field?, List.find?_cons, hself]
      rfl
    · have hne : c.1 ≠ p.1 := fun he => hc (List.mem_map.mpr ⟨p, hp, he.symm⟩)
      have hother : (Value.text c.1).isText p.1 = false := beq_false_of_ne hne
      rw [dumpedFields, Value.field?, List.find?_cons, hother]
      exact ih hcs hp

theorem fixed_object (name : String) {fs : List (Head × Schema)} (hf : ∀ f ∈ fs, FixedField f)
    (hn : (fs.map (·.1.name.column)).Nodup) : Fixed false (.object name fs) := by
  refine ⟨?_, by rintro ⟨⟩⟩
  intro v hv calls w fit later h calls'
  rw [judge_object] at h
  split at h
  · rename_i entries
    obtain ⟨columns, mid, hj, h⟩ := Run.bind_eq_ok.mp h
    cases columns with
    | error es => cases h
    | ok b =>
      obtain ⟨columns, f⟩ := b
      cases h
      have hnames : (columns.map (·.1)).Nodup := (names_of_judgeFields hj).symm ▸ hn
      obtain ⟨cs, again, last, hcs, hsame⟩ := judgeFields_again hf hv hj
        (fun p hp => field?_dumpedFields hnames hp) calls'
      have hcsnames : (cs.map (·.1)).Nodup := (names_of_judgeFields hcs).symm ▸ hn
      rw [distinctColumns_of_nodup hnames]
      refine ⟨.record cs (givenFields fs (dumpedFields columns)),
        ⟨.lax, Fit.addGiven (some 0) again.given⟩, last, ?_, ?_⟩
      · rw [judge_object, dumped]
        dsimp only
        rw [Run.bind_ok hcs, ofObject, distinctColumns_of_nodup hcsnames]
        rfl
      · rw [dumped, dumped, hsame]
  · cases h

def toEntries (out : List (String × Value)) : Entries := out.map fun p => (.text p.1, p.2)

theorem toEntries_injective : Function.Injective toEntries := by
  refine List.map_injective_iff.mpr ?_
  rintro ⟨n, v⟩ ⟨k, w⟩ h
  cases h
  rfl

theorem toEntries_dumped (columns : List (String × Value)) :
    toEntries (columns.map fun p => (p.1, dumped p.2)) = dumpedFields columns := by
  rw [toEntries, List.map_map, dumpedFields_eq]
  rfl

theorem validate_eq_ok {m : Model} {entries : Entries} {calls later : Calls}
    {out : List (String × Value)} :
    m.validate (.dict entries) calls = (.ok (.ok out), later) ↔
      ∃ columns fit, judgeFields m.fields entries calls = (.ok (.ok (columns, fit)), later) ∧
        (distinctColumns columns).map (fun p => (p.1, dumped p.2)) = out := by
  constructor
  · intro h
    obtain ⟨result, mid, hj, h⟩ := Run.bind_eq_ok.mp h
    cases result with
    | error es => cases h
    | ok b =>
      cases h
      exact ⟨b.1, b.2, hj, rfl⟩
  · rintro ⟨columns, fit, hj, rfl⟩
    exact Run.bind_ok hj

theorem validate_again {m : Model} (hf : ∀ f ∈ m.fields, FixedField f)
    (hn : (m.fields.map (·.1.name.column)).Nodup) {row : Value} (hr : recordFree row = true)
    {calls later : Calls} {out : List (String × Value)}
    (h : m.validate row calls = (.ok (.ok out), later)) (calls' : Calls) :
    ∃ last, m.validate (.dict (toEntries out)) calls' = (.ok (.ok out), last) := by
  cases row with
  | dict entries =>
    obtain ⟨columns, fit, hj, rfl⟩ := validate_eq_ok.mp h
    have hnames : (columns.map (·.1)).Nodup := (names_of_judgeFields hj).symm ▸ hn
    rw [distinctColumns_of_nodup hnames, toEntries_dumped]
    obtain ⟨cs, again, last, hcs, hsame⟩ := judgeFields_again hf hr hj
      (fun p hp => field?_dumpedFields hnames hp) calls'
    have hcsnames : (cs.map (·.1)).Nodup := (names_of_judgeFields hcs).symm ▸ hn
    refine ⟨last, validate_eq_ok.mpr ⟨cs, again, hcs, toEntries_injective ?_⟩⟩
    rw [distinctColumns_of_nodup hcsnames, toEntries_dumped, toEntries_dumped, hsame]
  | _ => cases h

end Row

end Tablewright
