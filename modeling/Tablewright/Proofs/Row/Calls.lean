import Mathlib.Data.List.Forall2
import Tablewright.Proofs.Row.OneColumn
import Tablewright.Proofs.Rule.Calls

namespace Tablewright.Row

open Run (Adds CallsOnly closed_callsOnly closed_adds_zero adds_pure)

theorem callsOnly_supply {P : Nat → Prop} {f : Callable} (h : P f.slot) : f.supply.CallsOnly P :=
  fun _ => ⟨[f.slot], rfl, by simpa using h⟩

theorem callsOnly_judgeCheck {P : Nat → Prop} {c : Refinement} (h : P c.condition.slot) (v : Value)
    (fit : Fit) : (judgeCheck c v fit).CallsOnly P := by
  intro calls
  refine ⟨[c.condition.slot], ?_, by simpa using h⟩
  have hask : c.condition.ask v calls =
      (c.condition.test v, c.condition.slot :: calls) := rfl
  rw [judgeCheck, hask]
  cases c.condition.test v with
  | ok accepted => cases accepted <;> rfl
  | error f => cases f <;> rfl

theorem covers_callsOnly (P : Nat → Prop) :
    Covers (CallsOnly P) (fun _ c => P c.condition.slot) (fun f => P f.slot) :=
  ⟨closed_callsOnly P, fun h _ w fit _ => callsOnly_judgeCheck h w fit, callsOnly_supply⟩

section

variable {name : String} {r : Rule} {s : Schema} (hs : schema? name r = some s)

include hs

theorem callsOnly_judge (v : Value) : (judge s v).CallsOnly (· ∈ r.judgingSlots) := by
  refine closed_judge (covers_callsOnly _) s (every_schema? name r ?_ ?_ hs) v
  · exact fun q hq base c h => List.mem_append_left _ (List.mem_map_of_mem (h.mem_everyCheck hq))
  · exact fun f hf => List.mem_append_right _ (List.mem_map_of_mem hf)

end

theorem calls_of_judgeMissing {column : String} {r : Rule} {calls later : Calls}
    {result : Except Issues Value} (h : judgeMissing column r calls = (.ok result, later)) :
    later = r.ownSlots ++ calls := by
  rw [judgeMissing] at h
  rw [Rule.ownSlots, Rule.ownFactory?]
  cases hs : r.source? with
  | none =>
    rw [hs] at h
    cases h
    rfl
  | some source =>
    rw [hs] at h
    obtain ⟨v, mid, hv, h⟩ := Run.bind_eq_ok.mp h
    cases h
    exact DefaultSource.calls_of_give hv

/-- Whether a row gives a column under neither of its names. What is no dictionary is no row. -/
def lacks (n : FieldName) : Value → Bool
  | .dict row => (Value.field? row n.column).isNone && (Value.field? row n.field).isNone
  | _ => false

theorem given_eq_none_iff {row : Entries} {n : FieldName} :
    given row n.column n.field = none ↔ lacks n (.dict row) = true := by
  rw [given, lacks]
  cases Value.field? row n.column <;> simp

theorem eq_of_judgeColumn {p : Part} (hname : p.name.column = p.column) {f : Callable}
    (hf : p.rule.ownFactory? = some f) {row : Entries} (hl : lacks p.name (.dict row) = true)
    {calls later : Calls} {w v : Value} (h : judgeColumn row p calls = (.ok (.ok w), later))
    (hv : f.source (calls.times f.slot) = .ok v) : w = dumped v := by
  rw [judgeColumn, ← hname, given_eq_none_iff.mpr hl] at h
  dsimp only at h
  rw [judgeMissing, Rule.ownFactory?_eq_some.mp hf] at h
  cases h.symm.trans (Run.bind_ok (DefaultSource.give_factory hv))
  rfl

/-- What is called for one column of a row: its own function when the row lacks it, and otherwise
functions that judge its value. -/
def Segment (row : Value) (r : Rule) (n : FieldName) (segment : List Nat) : Prop :=
  if lacks n row then segment = r.ownSlots else segment ⊆ r.judgingSlots

theorem segment_of_judgeColumn {p : Part} (hname : p.name.column = p.column) {name : String}
    (hs : schema? name p.rule = some p.schema) {row : Entries} {calls later : Calls}
    {result : Except Issues Value} (h : judgeColumn row p calls = (.ok result, later)) :
    ∃ segment, later = segment ++ calls ∧ Segment (.dict row) p.rule p.name segment := by
  rw [judgeColumn, ← hname] at h
  cases hg : given row p.name.column p.name.field with
  | none =>
    rw [hg] at h
    refine ⟨p.rule.ownSlots, calls_of_judgeMissing h, ?_⟩
    rw [Segment, if_pos (given_eq_none_iff.mp hg)]
  | some found =>
    rw [hg] at h
    obtain ⟨j, mid, hj, h⟩ := Run.bind_eq_ok.mp h
    cases h
    obtain ⟨segment, hnew, hslots⟩ := callsOnly_judge hs found.2 calls
    rw [hj] at hnew
    refine ⟨segment, hnew, ?_⟩
    rw [Segment, if_neg (by rw [← given_eq_none_iff, hg]; simp)]
    exact hslots

theorem adds_judgeColumn {p : Part} (hname : p.name.column = p.column) {name : String}
    (hs : schema? name p.rule = some p.schema) {slot : Nat} (h : slot ∉ p.rule.judgingSlots)
    (row : Entries) : (judgeColumn row p).Adds slot
      (if lacks p.name (.dict row) then p.rule.ownSlots.count slot else 0) := by
  intro calls result later hr
  obtain ⟨segment, rfl, hsegment⟩ := segment_of_judgeColumn hname hs hr
  rw [Calls.times, List.count_append, Nat.add_comm, Calls.times]
  rw [Segment] at hsegment
  split
  · rw [if_pos (by assumption)] at hsegment
    rw [hsegment]
  · rw [if_neg (by assumption)] at hsegment
    rw [List.count_eq_zero.mpr fun hm => h (hsegment hm)]

theorem adds_judgeColumn_idle {p : Part} (hname : p.name.column = p.column) {name : String}
    (hs : schema? name p.rule = some p.schema) {slot : Nat} (h : p.rule.Idle slot)
    (row : Entries) : (judgeColumn row p).Adds slot 0 := by
  have hadds := adds_judgeColumn hname hs h.2 row
  rw [List.count_eq_zero.mpr h.1, ite_self] at hadds
  exact hadds

theorem segments_of_mapM {ps : List Part} {row : Entries}
    (hps : ∀ p ∈ ps, p.name.column = p.column ∧ ∃ name, schema? name p.rule = some p.schema)
    {calls later : Calls} {results : List (Except Issues Value)}
    (h : ps.mapM (judgeColumn row) calls = (.ok results, later)) :
    ∃ segments, later = segments.reverse.flatten ++ calls ∧
      List.Forall₂ (fun p segment => Segment (.dict row) p.rule p.name segment) ps segments := by
  induction ps generalizing calls results with
  | nil =>
    cases h
    exact ⟨[], rfl, .nil⟩
  | cons p ps ih =>
    obtain ⟨⟨hname, name, hs⟩, hps⟩ := List.forall_mem_cons.mp hps
    obtain ⟨r, mid, rest, hr, hrest, rfl⟩ := Run.mapM_cons_eq_ok h
    obtain ⟨segment, rfl, hsegment⟩ := segment_of_judgeColumn hname hs hr
    obtain ⟨segments, rfl, hsegments⟩ := ih hps hrest
    refine ⟨segment :: segments, ?_, .cons hsegment hsegments⟩
    rw [List.reverse_cons, List.flatten_append, List.flatten_singleton, List.append_assoc]

theorem map_parts {columns : List (String × Rule)} {names : List FieldName} {schemas : List Schema}
    (hn : names.length = columns.length) (hs : schemas.length = columns.length) :
    (parts columns names schemas).map (fun p => (p.rule, p.name)) =
      (columns.map (·.2)).zip names := by
  induction columns generalizing names schemas with
  | nil => rfl
  | cons c cs ih =>
    rcases names with _ | ⟨n, ns⟩
    · cases hn
    · rcases schemas with _ | ⟨s, ss⟩
      · cases hs
      · exact congrArg ((c.2, n) :: ·) (ih (Nat.succ.inj hn) (Nat.succ.inj hs))

theorem adds_zero_of_split {name : String} {columns : List (String × Rule)} {schemas : List Schema}
    (hs : schemasOf? name columns = some schemas) (hl : schemas.length = columns.length)
    (hn : (columns.map (·.1)).Nodup) {left right : List Part}
    {p : Part} (hsplit : partsOf columns schemas = left ++ p :: right) {slot : Nat}
    (hothers : ∀ d ∈ columns, d.1 ≠ p.column → d.2.Idle slot) (row : Entries) :
    ∀ q ∈ left ++ right, (judgeColumn row q).Adds slot 0 := by
  intro q hside
  obtain ⟨-, -, hparts⟩ := parts_spec (map_column_fieldNames (columns.map (·.1))) hl
  have hmem : q ∈ partsOf columns schemas :=
    hsplit ▸ ((List.sublist_cons_self p right).append_left left).subset hside
  obtain ⟨hcolumn, hrule⟩ := hparts q hmem
  have hne : q.column ≠ p.column := (apart_of_split hl hn hsplit q hside).1
  exact adds_judgeColumn_idle hcolumn (schema?_of_mem_parts hs hmem) (hothers _ hrule hne) row

section

variable {name : String} {columns : List (String × Rule)} {m : Model}
  (hm : Model.ofColumns? name columns = some m) (hn : (columns.map (·.1)).Nodup)

include hm hn

theorem segments_of_validate {row : Entries} {calls later : Calls}
    {result : Except Issues (List (String × Value))}
    (h : m.validate (.dict row) calls = (.ok result, later)) :
    ∃ segments, later = segments.reverse.flatten ++ calls ∧
      List.Forall₂ (fun p segment => Segment (.dict row) p.1 p.2 segment)
        ((columns.map (·.2)).zip (fieldNames (columns.map (·.1)))) segments := by
  obtain ⟨schemas, hs, hl, heq⟩ := validate_eq hm hn
  obtain ⟨-, -, hparts⟩ := parts_spec (map_column_fieldNames (columns.map (·.1))) hl
  rw [heq] at h
  obtain ⟨results, mid, hr, h⟩ := Run.bind_eq_ok.mp h
  cases h
  obtain ⟨segments, hlater, hall⟩ := segments_of_mapM
    (fun p hp => ⟨(hparts p hp).1, _, schema?_of_mem_parts hs hp⟩) hr
  refine ⟨segments, hlater, ?_⟩
  rw [← map_parts length_fieldNames hl, List.forall₂_map_left_iff]
  exact hall

theorem adds_validate_idle {slot : Nat} (h : ∀ c ∈ columns, c.2.Idle slot) (row : Value) :
    (m.validate row).Adds slot 0 := by
  obtain ⟨schemas, hs, hl, heq⟩ := validate_eq hm hn
  obtain ⟨-, -, hparts⟩ := parts_spec (map_column_fieldNames (columns.map (·.1))) hl
  cases row with
  | dict entries =>
    rw [heq, judgeColumns]
    refine Adds.bind ((closed_adds_zero slot).mapM fun p hp => ?_) fun _ _ => adds_pure slot _
    obtain ⟨hname, hmem⟩ := hparts p hp
    exact adds_judgeColumn_idle hname (schema?_of_mem_parts hs hp) (h _ hmem) entries
  | _ => exact adds_pure slot _

/-- The function of a column that no other column calls is called once for every row that lacks the
column, and what it gives is found in the row. -/
theorem adds_validate_own {c : String × Rule} (hc : c ∈ columns) {f : Callable}
    (hf : c.2.ownFactory? = some f) (hjudging : f.slot ∉ c.2.judgingSlots)
    (hothers : ∀ d ∈ columns, d.1 ≠ c.1 → d.2.Idle f.slot) :
    ∃ n ∈ fieldNames (columns.map (·.1)), n.column = c.1 ∧
      (∀ row, (m.validate row).Adds f.slot (lacks n row).toNat) ∧
      ∀ row calls later out, lacks n row = true → m.validate row calls = (.ok (.ok out), later) →
        ∀ v, f.source (calls.times f.slot) = .ok v → out.lookup c.1 = some (dumped v) := by
  obtain ⟨schemas, hs, hl, heq⟩ := validate_eq hm hn
  obtain ⟨left, p, right, hsplit, rfl, hname, hmem⟩ := exists_part hl hn hc
  have hschema : schema? (name ++ pascal p.column) p.rule = some p.schema :=
    schema?_of_mem_parts hs (by rw [← partsOf, hsplit]; simp)
  have hidle := adds_zero_of_split hs hl hn hsplit hothers
  refine ⟨p.name, hmem, hname, ?_, ?_⟩
  · intro row
    cases row with
    | dict entries =>
      have hp : (judgeColumn entries p).Adds f.slot (lacks p.name (.dict entries)).toNat := by
        have hadds := adds_judgeColumn hname hschema hjudging entries
        rw [Rule.count_ownSlots hf] at hadds
        cases hl : lacks p.name (.dict entries) <;> simpa [hl] using hadds
      rw [heq, judgeColumns, hsplit]
      exact (hp.mapM_single (hidle entries)).bind fun results _ =>
        adds_pure f.slot (joinColumns ((columns.map (·.1)).zip results))
    | _ => exact adds_pure f.slot _
  · intro row calls later out hlacks h v hv
    cases row with
    | dict entries =>
      rw [heq] at h
      obtain ⟨lefts, before, w, after, hlefts, hw, hlookup⟩ := lookup_judgeColumns hl hn hsplit h
      have hleft : (left.mapM (judgeColumn entries)).Adds f.slot 0 :=
        (closed_adds_zero f.slot).mapM fun q hm => hidle entries q (List.mem_append_left _ hm)
      have hbefore : before.times f.slot = calls.times f.slot := hleft _ _ _ hlefts
      rw [← hbefore] at hv
      rw [hlookup, eq_of_judgeColumn hname hf hlacks hw hv]
    | _ => cases hlacks

end

end Tablewright.Row
