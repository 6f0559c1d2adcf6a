import Tablewright.Proofs.Row.OneColumn
import Tablewright.Proofs.Sql.Definition
import Tablewright.Table.Compiled

namespace Tablewright

def DefaultSource.Always (s : DefaultSource) (v : Value) : Prop := ∀ calls, (s.give calls).1 = .ok v

def Layer.isOptional : Layer → Bool
  | .optional => true
  | .nullable | .default .. => false

namespace Rule

/-- The innermost default of a rule always gives a value, or else the rule has no default. -/
def DefaultsTo (r : Rule) (d : Option Value) : Prop := Option.Rel DefaultSource.Always r.source? d

def isUndefined : Rule → Bool
  | .scalar _ .undefined => true
  | _ => false

theorem DefaultsTo.cases {r : Rule} {d : Option Value} (h : r.DefaultsTo d) :
    r.source? = none ∧ d = none ∨
      ∃ s v, r.source? = some s ∧ d = some v ∧ ∀ calls, ∃ later, s.give calls = (.ok v, later) := by
  rw [DefaultsTo] at h
  generalize r.source? = source at h
  cases h with
  | none => exact .inl ⟨rfl, rfl⟩
  | some hv => exact .inr ⟨_, _, rfl, rfl, fun calls => ⟨_, Prod.ext (hv calls) rfl⟩⟩

theorem unwrap_of_defaultsTo {r : Rule} {d : Option Value} (h : r.DefaultsTo d) (calls : Calls) :
    ∃ later, r.unwrap calls = (.ok ⟨r.leaf, r.layers.any admitsNull, d⟩, later) := by
  rw [unwrap_eq]
  obtain ⟨hs, rfl⟩ | ⟨s, v, hs, rfl, hv⟩ := h.cases
  · rw [hs]
    exact ⟨calls, rfl⟩
  · rw [hs]
    obtain ⟨later, hgive⟩ := hv calls
    exact ⟨later, Run.bind_ok hgive⟩

end Rule

namespace Sql

def leading (c : Column) : List String :=
  [c.name, (storage c.rule.leaf).word]
    ++ if c.rule.layers.any Rule.admitsNull then [] else ["NOT NULL"]

def trailing (c : Column) : List String :=
  (if c.unique then ["UNIQUE"] else []) ++ (check? c.name c.rule).toList
    ++ referenceClauses c.references

/-- Whether the definition of a column with this default has no number in it that is too long. -/
def CanShow (c : Column) (d : Option Value) : Prop :=
  (d.all fun v => hasDefault v (storage c.rule.leaf)) = true ∧
    ∀ k ∈ conditions c.rule, k.isWritable = true

theorem isWritable_iff_canShow {c : Column} {nullable : Bool} {d : Option Value} :
    isWritable c ⟨c.rule.leaf, nullable, d⟩ = true ↔ CanShow c d := by
  rw [isWritable, Bool.and_eq_true, List.all_eq_true]
  rfl

theorem defineColumn_of_defaultsTo {c : Column} {d : Option Value} (h : c.rule.DefaultsTo d)
    (calls : Calls) : ∃ events later,
      (CanShow c d → defineColumn c calls =
        (.ok (" ".intercalate (leading c
          ++ (d.map fun v => defaultClause v (storage c.rule.leaf)).toList ++ trailing c), events),
          later)) ∧
      (¬ CanShow c d → defineColumn c calls = (.error .tooManyDigits, later)) := by
  obtain ⟨later, hu⟩ := Rule.unwrap_of_defaultsTo h calls
  refine ⟨columnEvents c ⟨c.rule.leaf, c.rule.layers.any Rule.admitsNull, d⟩, later, ?_, ?_⟩
  · intro hs
    rw [defineColumn_of_writable hu (isWritable_iff_canShow.mpr hs), leading, trailing,
      ← List.append_assoc, ← List.append_assoc]
    rfl
  · intro hs
    rw [← isWritable_iff_canShow, Bool.not_eq_true] at hs
    exact defineColumn_of_unwritable hu hs

end Sql

namespace Row

theorem mayBeAbsent_eq (r : Rule) :
    mayBeAbsent r = (r.layers.any Layer.isOptional || r.leaf.isUndefined) := by
  induction r using Rule.layerInduction with
  | layer checks l r ih =>
    cases l with
    | optional => rfl
    | nullable | default => exact ih
  | scalar checks s => cases s <;> rfl
  | _ => rfl

/-- What becomes of a column that a row does not give, when its default is this. -/
def absentOutcome (c : Column) : Option Value → Except Issues Value
  | some v => .ok v
  | none =>
    if c.rule.layers.any Layer.isOptional || c.rule.leaf.isUndefined then .ok .null
    else .error [⟨.missing, [.key c.name]⟩]

theorem judgeAbsent_of_defaultsTo {c : Column} {d : Option Value} (h : c.rule.DefaultsTo d)
    {n : FieldName} (hn : n.column = c.name) (calls : Calls) :
    (judgeAbsent ⟨n, absence c.rule⟩ calls).1 = .ok ((absentOutcome c d).map (·, .exact)) := by
  rw [judgeAbsent, absence_eq, mayBeAbsent_eq]
  obtain ⟨hs, rfl⟩ | ⟨s, v, hs, rfl, hv⟩ := h.cases
  · rw [hs, absentOutcome, ← hn]
    dsimp only
    split <;> rfl
  · rw [hs]
    obtain ⟨later, hgive⟩ := hv calls
    cases s with
    | value w =>
      cases hgive
      rfl
    | factory f => exact congrArg Prod.fst (Run.bind_ok hgive)

theorem absence_eq_refused_iff {c : Column} {d : Option Value} (h : c.rule.DefaultsTo d) :
    absence c.rule = .refused ↔ absentOutcome c d = .error [⟨.missing, [.key c.name]⟩] := by
  rw [absence_eq, mayBeAbsent_eq]
  obtain ⟨hs, rfl⟩ | ⟨s, v, hs, rfl, -⟩ := h.cases
  · rw [hs, absentOutcome]
    dsimp only
    split <;> simp
  · rw [hs]
    cases s <;> simp [absentOutcome]

theorem judgeColumn_of_defaultsTo {c : Column} {d : Option Value} (h : c.rule.DefaultsTo d)
    {n : FieldName} (hn : n.column = c.name) (s : Schema) {row : Entries}
    (hg : given row c.name n.field = none) (calls : Calls) :
    (judgeColumn row ⟨c.name, c.rule, n, s⟩ calls).1 = .ok ((absentOutcome c d).map dumped) := by
  have hj := judgeAbsent_of_defaultsTo h hn calls
  rw [judgeColumn, hg]
  dsimp only
  rw [← hn, ← judgeAbsent_eq, map_eq_pure_bind, Run.bind_ok (Prod.ext hj rfl)]
  exact congrArg Except.ok (by cases absentOutcome c d <;> rfl)

mutual

def holdsNoRecord : Value → Bool
  | .record .. => false
  | .list xs | .tuple xs => holdNoRecord xs
  | _ => true

def holdNoRecord : List Value → Bool
  | [] => true
  | v :: vs => holdsNoRecord v && holdNoRecord vs

end

mutual

theorem dumped_eq_self : ∀ v : Value, holdsNoRecord v = true → dumped v = v
  | .record .., h => nomatch h
  | .list xs, h => by rw [dumped, dumpedItems_eq_self xs h]
  | .tuple xs, h => by rw [dumped, dumpedItems_eq_self xs h]
  | .null, _ | .bool _, _ | .int _, _ | .float _, _ | .text _, _ | .bytes _, _ | .date _, _
  | .datetime _, _ | .time _, _ | .duration _, _ | .decimal _, _ | .member _, _ | .set _, _
  | .dict _, _ | .function _, _ => by
    rw [dumped]
    all_goals simp

theorem dumpedItems_eq_self : ∀ vs : List Value, holdNoRecord vs = true → dumpedItems vs = vs
  | [], _ => rfl
  | v :: vs, h => by
    rw [holdNoRecord, Bool.and_eq_true] at h
    rw [dumpedItems, dumped_eq_self v h.1, dumpedItems_eq_self vs h.2]

end

/-- What the model of rows makes of a column that a row does not give. -/
structure StandsIn (columns : List Column) (m : Model) (c : Column) (d : Option Value)
    (f : Head × Schema) : Prop where
  mem : f ∈ m.fields
  column : f.1.name.column = c.name
  named : ∀ row : Entries, (∀ e ∈ row, ∀ s, e.1 = .text s → s ∈ columns.map (·.name)) →
    given row c.name f.1.name.field = (Value.field? row c.name).map (c.name, ·)
  required : f.1.absence = .refused ↔ absentOutcome c d = .error [⟨.missing, [.key c.name]⟩]
  judged : ∀ row calls, given row c.name f.1.name.field = none →
    (judgeField (judge f.2) f.1 row calls).1 = .ok ((absentOutcome c d).map (·, .exact))
  accepted : ∀ row calls later out, given row c.name f.1.name.field = none →
    m.validate (.dict row) calls = (.ok (.ok out), later) →
      ∃ v, absentOutcome c d = .ok v ∧ out.lookup c.name = some (dumped v) ∧
        (holdsNoRecord v = true → out.lookup c.name = some v)
  refused : ∀ row calls later es, given row c.name f.1.name.field = none →
    m.validate (.dict row) calls = (.ok (.error es), later) →
      es.filter (concerns c.name) = complaints (absentOutcome c d)

theorem exists_standsIn {suffix name : String} {columns : List Column} {m : Model}
    (hm : Table.rowModel? suffix name columns = some m) (hn : (columns.map (·.name)).Nodup)
    {c : Column} (hc : c ∈ columns) {d : Option Value} (hd : c.rule.DefaultsTo d) :
    (∃ f, StandsIn columns m c d f) ∧
      (∀ row, (m.validate row).EndedBy fun slot f => ∃ c ∈ columns, c.rule.Raises slot f) ∧
      ((∀ c ∈ columns, c.rule.Calm) → ∀ row, (m.validate (.dict row)).Returns) := by
  have hpairs : (columns.map fun c => (c.name, c.rule)).map (·.1) = columns.map (·.name) := by
    rw [List.map_map]
    rfl
  rw [← hpairs] at hn
  obtain ⟨schemas, hs, hl, hfields, -⟩ := fields_ofColumns? hm hn
  obtain ⟨_, hs', -, heq⟩ := validate_eq hm hn
  cases Option.some.inj (hs.symm.trans hs')
  obtain ⟨left, ⟨column, rule, n, s⟩, right, hsplit, hcolumn, hname, hmem⟩ :=
    exists_part hl hn (List.mem_map_of_mem (f := fun c => (c.name, c.rule)) hc)
  cases hcolumn
  refine ⟨⟨(⟨n, absence c.rule⟩, s), ?_, hname, ?_, absence_eq_refused_iff hd, ?_, ?_, ?_⟩, ?_, ?_⟩
  · rw [hfields, hsplit]
    simp [Part.toField]
  · intro row hrow
    rw [← hpairs] at hrow
    exact given_of_columns (p := ⟨c.name, c.rule, n, s⟩) hrow hmem hname
  · intro row calls hg
    have hfind : findField n row = given row n.column n.field := rfl
    rw [judgeField, hfind, hname, hg]
    exact judgeAbsent_of_defaultsTo hd hname calls
  · intro row calls later out hg h
    rw [heq] at h
    obtain ⟨-, before, w, after, -, hw, hlookup⟩ := lookup_judgeColumns hl hn hsplit h
    have hj := judgeColumn_of_defaultsTo hd hname s hg before
    rw [hw] at hj
    cases ho : absentOutcome c d with
    | error es =>
      rw [ho] at hj
      cases hj
    | ok v =>
      rw [ho] at hj
      cases hj
      refine ⟨v, rfl, hlookup, fun hv => ?_⟩
      rw [hlookup, dumped_eq_self v hv]
  · intro row calls later es hg h
    rw [heq] at h
    obtain ⟨before, r, after, hr, hfilter⟩ := filter_judgeColumns hl hn hsplit hg h
    have hj := judgeColumn_of_defaultsTo hd hname s hg before
    rw [hr] at hj
    rw [hfilter, Except.ok.inj hj]
    cases absentOutcome c d <;> rfl
  · intro row
    refine (endedBy_validate hm hn row).mono fun slot f hf => ?_
    simpa using hf
  · exact fun hcalm row => returns_validate hm hn (List.forall_mem_map.mpr hcalm) (.dict row)

/-- A column whose inner default stands behind an outer one and a layer that would leave it null,
beside a column that must be given. -/
def shelved : List Column :=
  [⟨"class", .layer [] .nullable (.scalar [] .bigint), false, none⟩,
    ⟨"shelf", .layer [] (.default (.text "outer") none) (.layer [] .optional
      (.layer [] (.default .null (some (.ofSource 0 fun _ => .ok (.int 7)))) (.scalar [] .bigint))),
      true, none⟩]

end Row

end Tablewright
