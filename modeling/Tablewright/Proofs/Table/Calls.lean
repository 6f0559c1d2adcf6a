import Tablewright.Proofs.Row.Calls
import Tablewright.Proofs.Table.Defects

namespace Tablewright.Table

open Log (Context Record)

def slots (t : Table) : List Nat := t.columns.flatMap (·.rule.slots)

theorem split_of_count_eq_one {t : Table} {slot : Nat} (h : t.slots.count slot = 1) {c : Column}
    (hc : c ∈ t.columns) (hpos : 0 < c.rule.slots.count slot) :
    c.rule.slots.count slot ≤ 1 ∧ ∃ left right, t.columns = left ++ c :: right ∧
      ∀ d ∈ left ++ right, d.rule.Idle slot := by
  obtain ⟨left, right, hsplit⟩ := List.append_of_mem hc
  rw [slots, hsplit, List.flatMap_append, List.flatMap_cons, List.count_append, List.count_append]
    at h
  have hleft : slot ∉ left.flatMap (·.rule.slots) := List.count_eq_zero.mp (by omega)
  have hright : slot ∉ right.flatMap (·.rule.slots) := List.count_eq_zero.mp (by omega)
  refine ⟨by omega, left, right, hsplit, fun d hd => ?_⟩
  refine Rule.idle_of_count_eq_zero (List.count_eq_zero.mpr fun hm => ?_)
  obtain hd | hd := List.mem_append.mp hd
  · exact hleft (List.mem_flatMap_of_mem hd hm)
  · exact hright (List.mem_flatMap_of_mem hd hm)

theorem count_ownSlots_of_idle {cs : List Column} {slot : Nat} (h : ∀ c ∈ cs, c.rule.Idle slot) :
    (cs.flatMap (·.rule.ownSlots)).count slot = 0 := by
  rw [List.count_eq_zero]
  intro hm
  obtain ⟨c, hc, hslot⟩ := List.mem_flatMap.mp hm
  exact (h c hc).1 hslot

theorem calls_of_mapM_unwrap {cs : List Column} {us : List Unwrapped} {calls later : Calls}
    (h : cs.mapM (·.rule.unwrap) calls = (.ok us, later)) :
    later = (cs.flatMap (·.rule.ownSlots)).reverse ++ calls := by
  induction cs generalizing us calls with
  | nil =>
    cases h
    rfl
  | cons c cs ih =>
    obtain ⟨u, mid, vs, hu, hvs, rfl⟩ := Run.mapM_cons_eq_ok h
    rw [ih hvs, Rule.calls_of_unwrap hu, List.flatMap_cons, List.reverse_append,
      Rule.reverse_ownSlots, List.append_assoc]

theorem times_of_mapM_unwrap {cs : List Column} {us : List Unwrapped} {calls later : Calls}
    (h : cs.mapM (·.rule.unwrap) calls = (.ok us, later)) (slot : Nat) :
    later.times slot = calls.times slot + (cs.flatMap (·.rule.ownSlots)).count slot := by
  rw [calls_of_mapM_unwrap h, Calls.times, List.count_append, List.count_reverse, Nat.add_comm]
  rfl

theorem map_fst_pairs (t : Table) :
    (t.columns.map fun c => (c.name, c.rule)).map (·.1) = t.columnNames := by
  rw [List.map_map]
  rfl

/-- What is called for the default of a column, from before its table is compiled on, by a function
that belongs to no other rule. -/
structure Ticks (settings : CompilerSettings) (t : Table) (compiled : Compiled) (c : Column)
    (f : Callable) (calls later : Calls) (n : Row.FieldName) : Prop where
  named : ∀ row : Entries, (∀ e ∈ row, ∀ s, e.1 = .text s → s ∈ t.columnNames) →
    Row.lacks n (.dict row) = (Value.field? row c.name).isNone
  once : later.times f.slot = calls.times f.slot + 1
  row : ∀ row, (compiled.validate row).Adds f.slot (Row.lacks n row).toNat
  rows : ∀ rows : List Value, (rows.mapM compiled.validate).Adds f.slot (rows.countP (Row.lacks n))
  definition : ∀ start, f.Counts start → ∃ left right texts,
    t.columns = left ++ c :: right ∧ compiled.definition = Sql.tableStatement settings.ifNotExists
      t.name (texts ++ (Sql.keyClause? t.primaryKeys).toList) ∧
    texts[left.length]? = some (Sql.columnText c ⟨c.rule.leaf, c.rule.layers.any Rule.admitsNull,
      some (.int (start + calls.times f.slot))⟩)
  values : ∀ start, f.Counts start → ∀ before row after results last out,
    (before ++ row :: after).mapM compiled.validate later = (.ok results, last) →
    results[before.length]? = some (.ok out) → Row.lacks n row = true → out.lookup c.name =
      some (.int (start + calls.times f.slot + (before.countP (Row.lacks n) + 1 : Nat)))

section

variable {settings : CompilerSettings} {context : Context} {t : Table} {calls later : Calls}
  {compiled : Compiled} {records : List Record}

/-- The text of a column with a counter shows what the counter gives before any row is read. -/
theorem definition_of_counter {us : List Unwrapped} {left right : List Column} {c : Column}
    (h : (left ++ c :: right).mapM (·.rule.unwrap) calls = (.ok us, later)) {f : Callable}
    (hf : c.rule.ownFactory? = some f) (hidle : ∀ d ∈ left, d.rule.Idle f.slot) {start : Int}
    (hs : f.Counts start) :
    (List.zipWith Sql.columnText (left ++ c :: right) us)[left.length]? =
      some (Sql.columnText c ⟨c.rule.leaf, c.rule.layers.any Rule.admitsNull,
        some (.int (start + calls.times f.slot))⟩) := by
  obtain ⟨lefts, mid, rest, hlefts, hrest, rfl⟩ := Run.mapM_append_eq_ok h
  obtain ⟨u, last, rights, hu, -, rfl⟩ := Run.mapM_cons_eq_ok hrest
  have hmid : mid.times f.slot = calls.times f.slot := by
    rw [times_of_mapM_unwrap hlefts, count_ownSlots_of_idle hidle, Nat.add_zero]
  have hv : f.source (mid.times f.slot) = .ok (.int (start + calls.times f.slot)) := by
    rw [hmid, hs]
  have hlength : left.length = lefts.length := (Run.length_of_mapM hlefts).symm
  rw [Rule.eq_of_unwrap hu hf hv, List.zipWith_append hlength, List.zipWith_cons_cons]
  simp [hlength]

variable (h : t.compile settings context calls = (.ok compiled, later, records))

include h

theorem calls_of_compile : later = (t.columns.flatMap (·.rule.ownSlots)).reverse ++ calls := by
  obtain ⟨us, m, hus, -, -⟩ := exists_of_compile h
  exact calls_of_mapM_unwrap hus

theorem nodup_of_compile : ((t.columns.map fun c => (c.name, c.rule)).map (·.1)).Nodup := by
  rw [map_fst_pairs]
  exact nodup_columnNames (defects_of_compile h)

theorem segments_of_compile {row : Entries} {before after : Calls}
    {result : Except Issues (List (String × Value))}
    (hr : compiled.validate (.dict row) before = (.ok result, after)) :
    ∃ segments, after = segments.reverse.flatten ++ before ∧
      List.Forall₂ (fun p segment => Row.Segment (.dict row) p.1 p.2 segment)
        ((t.columns.map (·.rule)).zip (Row.fieldNames t.columnNames)) segments := by
  obtain ⟨us, m, -, hm, rfl⟩ := exists_of_compile h
  obtain ⟨segments, hafter, hall⟩ := Row.segments_of_validate hm (nodup_of_compile h) hr
  rw [map_fst_pairs, List.map_map] at hall
  exact ⟨segments, hafter, hall⟩

theorem ticks_of_compile {c : Column} (hc : c ∈ t.columns) {f : Callable}
    (hf : c.rule.ownFactory? = some f) (hslot : t.slots.count f.slot = 1) :
    ∃ n ∈ Row.fieldNames t.columnNames, n.column = c.name ∧
      Ticks settings t compiled c f calls later n := by
  obtain ⟨us, m, hus, hm, rfl⟩ := exists_of_compile h
  have hpairs := map_fst_pairs t
  have hpos : 0 < c.rule.slots.count f.slot := by
    have hle := Rule.count_slots_le f.slot c.rule
    have hown := Rule.count_ownSlots hf
    omega
  obtain ⟨hone, left, right, hsplit, hidle⟩ := split_of_count_eq_one hslot hc hpos
  have hleft : ∀ d ∈ left, d.rule.Idle f.slot := fun d hd => hidle d (List.mem_append_left _ hd)
  have hright : ∀ d ∈ right, d.rule.Idle f.slot := fun d hd => hidle d (List.mem_append_right _ hd)
  have hothers : ∀ p ∈ t.columns.map fun c => (c.name, c.rule),
      p.1 ≠ c.name → p.2.Idle f.slot := by
    refine List.forall_mem_map.mpr fun d hd hne => hidle d ?_
    rw [hsplit, List.mem_append, List.mem_cons] at hd
    obtain hd | rfl | hd := hd
    · exact List.mem_append_left _ hd
    · exact absurd rfl hne
    · exact List.mem_append_right _ hd
  obtain ⟨n, hmem, hname, hrow, hvalue⟩ := Row.adds_validate_own hm (nodup_of_compile h)
    (c := (c.name, c.rule)) (List.mem_map_of_mem hc) hf (Rule.notMem_judgingSlots hone hf) hothers
  have hrows (rows : List Value) : (rows.mapM m.validate).Adds f.slot (rows.countP (Row.lacks n)) :=
    Run.Adds.mapM fun row _ => hrow row
  have honce : later.times f.slot = calls.times f.slot + 1 := by
    rw [times_of_mapM_unwrap hus, hsplit, List.flatMap_append, List.flatMap_cons,
      List.count_append, List.count_append, count_ownSlots_of_idle hleft,
      count_ownSlots_of_idle hright, Rule.count_ownSlots hf]
  refine ⟨n, hpairs ▸ hmem, hname, ?_, honce, hrow, hrows, ?_, ?_⟩
  · intro row hkeys
    rw [← hpairs] at hkeys
    have hgiven := Row.given_of_columns (p := ⟨c.name, c.rule, n, .any⟩) hkeys hmem hname
    rw [Bool.eq_iff_iff, ← Row.given_eq_none_iff, hname, hgiven, Option.map_eq_none_iff,
      Option.isNone_iff_eq_none]
  · intro start hs
    refine ⟨left, right, _, hsplit, rfl, ?_⟩
    rw [hsplit] at hus ⊢
    exact definition_of_counter hus hf hleft hs
  · intro start hs before row after results last out hrun hout hlacks
    obtain ⟨lefts, mid, rest, hlefts, hrest, rfl⟩ := Run.mapM_append_eq_ok hrun
    obtain ⟨r, next, rights, hr, -, rfl⟩ := Run.mapM_cons_eq_ok hrest
    rw [← Run.length_of_mapM hlefts, List.getElem?_append_right (Nat.le_refl _), Nat.sub_self,
      List.getElem?_cons_zero, Option.some.injEq] at hout
    subst hout
    -- Compiling was the first call, and every row so far that lacks the column was one more.
    have hmid : mid.times f.slot = calls.times f.slot + (before.countP (Row.lacks n) + 1) := by
      rw [hrows before _ _ _ hlefts, honce]
      omega
    refine hvalue row mid next out hlacks hr (.int _) ?_
    rw [hs, hmid, Int.natCast_add, Int.add_assoc]

/-- What ends a run over rows is raised by the function called last, which belongs to a column. -/
theorem endedBy_of_compile (rows : List Value) : (rows.mapM compiled.validate).EndedBy
    fun slot f => ∃ c ∈ t.columns, c.rule.Raises slot f := by
  obtain ⟨us, m, -, hm, rfl⟩ := exists_of_compile h
  refine (Run.closed_endedBy _).mapM fun row _ => ?_
  refine (Row.endedBy_validate hm (nodup_of_compile h) row).mono fun slot f hf => ?_
  obtain ⟨p, hp, hraises⟩ := hf
  obtain ⟨c, hc, rfl⟩ := List.mem_map.mp hp
  exact ⟨c, hc, hraises⟩

theorem idle_of_compile {c : Column} (hc : c ∈ t.columns) {f : Callable}
    (hf : f ∈ c.rule.shadowed) (hslot : t.slots.count f.slot = 1) :
    later.times f.slot = calls.times f.slot ∧
      ∀ rows : List Value, (rows.mapM compiled.validate).Adds f.slot 0 := by
  obtain ⟨us, m, hus, hm, rfl⟩ := exists_of_compile h
  have hpos : 0 < c.rule.slots.count f.slot := by
    have hle := Rule.count_slots_le f.slot c.rule
    have hshadowed := Rule.count_shadowed_pos hf
    omega
  obtain ⟨hone, left, right, hsplit, hsides⟩ := split_of_count_eq_one hslot hc hpos
  have hidle : ∀ d ∈ t.columns, d.rule.Idle f.slot := by
    intro d hd
    rw [hsplit, List.mem_append, List.mem_cons] at hd
    obtain hd | rfl | hd := hd
    · exact hsides d (List.mem_append_left _ hd)
    · exact Rule.idle_of_mem_shadowed hone hf
    · exact hsides d (List.mem_append_right _ hd)
  refine ⟨?_, fun rows => (Run.closed_adds_zero f.slot).mapM fun row _ => ?_⟩
  · rw [times_of_mapM_unwrap hus, count_ownSlots_of_idle hidle, Nat.add_zero]
  · exact Row.adds_validate_idle hm (nodup_of_compile h) (List.forall_mem_map.mpr hidle) row

/-- What is called over a whole run: compiling a table calls the innermost default function of each
column, in order, and nothing else; from then on, such a function is called once for every row that
lacks its column, whatever becomes of the row, and functions of outer defaults are not called. Only
a fault that the function called last raises can end a run, so a run over the rows of a table whose
functions raise none, on the values that come to them, goes to its end. -/
theorem calls_of_run :
    later = (t.columns.flatMap (·.rule.ownSlots)).reverse ++ calls ∧
    (∀ rows : List Value, (rows.mapM compiled.validate).EndedBy
      fun slot f => ∃ c ∈ t.columns, c.rule.Raises slot f) ∧
    ((∀ c ∈ t.columns, c.rule.Calm) → ∀ rows : List Value, (rows.mapM compiled.validate).Returns) ∧
    (∀ row before after result, compiled.validate (.dict row) before = (.ok result, after) →
      ∃ segments, after = segments.reverse.flatten ++ before ∧
        List.Forall₂ (fun p segment => Row.Segment (.dict row) p.1 p.2 segment)
          ((t.columns.map (·.rule)).zip (Row.fieldNames t.columnNames)) segments) ∧
    (∀ c ∈ t.columns, ∀ f, c.rule.ownFactory? = some f → t.slots.count f.slot = 1 →
      ∃ n ∈ Row.fieldNames t.columnNames, n.column = c.name ∧
        Ticks settings t compiled c f calls later n) ∧
    ∀ c ∈ t.columns, ∀ f ∈ c.rule.shadowed, t.slots.count f.slot = 1 →
      later.times f.slot = calls.times f.slot ∧
        ∀ rows : List Value, (rows.mapM compiled.validate).Adds f.slot 0 :=
  ⟨calls_of_compile h, endedBy_of_compile h,
    fun hcalm rows => (endedBy_of_compile h rows).returns fun slot f ⟨c, hc, hf⟩ =>
      hcalm c hc slot f hf,
    fun _ _ _ _ => segments_of_compile h, fun _ hc _ => ticks_of_compile h hc,
    fun _ hc _ => idle_of_compile h hc⟩

end

def visits : Table where
  name := "visits"
  columns := [
    ⟨"number", .layer [] (.default .null (some (.counter 0 500)))
      (.layer [] .nullable (.layer [] (.default .null (some (.counter 1 100)))
        (.scalar [] .bigint))), false, none⟩,
    ⟨"tags", .layer [] (.default (.list []) none)
      (.array [] (.layer [] (.default .null (some (.counter 2 0))) (.scalar [] .bigint))),
      false, none⟩,
    ⟨"guests", .scalar [⟨.even 3, "odd"⟩] .bigint, false, none⟩]
  primaryKeys := []
  indexes := []
  description := none

/-- Rows of which the second is refused for the number of its guests, and the third for lacking
it. -/
def visitRows : List Value :=
  [.dict [(.text "guests", .text "2")], .dict [(.text "guests", .int 3)], .dict [],
    .dict [(.text "guests", .int 4)]]

/-- The counters give numbers, and the number of guests is asked about as the number it is, although
the condition cannot tell of anything else whether it is even. -/
theorem calm_visits : ∀ c ∈ visits.columns, c.rule.Calm := by
  intro c hc
  simp only [visits, List.mem_cons, List.not_mem_nil, or_false] at hc
  obtain rfl | rfl | rfl := hc
  · refine Rule.Quiet.calm ⟨by rintro d ⟨⟩, fun f hf n => ?_⟩
    obtain rfl | rfl : f = .counter 0 500 ∨ f = .counter 1 100 := by
      simpa [Rule.everyFactory] using hf
    · exact ⟨_, rfl⟩
    · exact ⟨_, rfl⟩
  · refine Rule.Quiet.calm ⟨by rintro d ⟨⟩, fun f hf n => ?_⟩
    obtain rfl : f = .counter 2 0 := by simpa [Rule.everyFactory] using hf
    exact ⟨_, rfl⟩
  · refine Row.calm_scalar rfl fun d hd v w fit f hw => ?_
    cases List.mem_singleton.mp hd
    rw [Row.judgeLeaf] at hw
    obtain ⟨n, e, -, -, rfl, -⟩ := Row.settle_eq_ok hw
    rintro ⟨-, ⟨⟩⟩

theorem calls_of_run_visits :
    visits.slots.count 1 = 1 ∧ (∀ c ∈ visits.columns, c.rule.Calm) ∧
    ∃ compiled later records,
      visits.compile ⟨false, "Row"⟩ .empty [] = (.ok compiled, later, records) ∧ later = [1] ∧
      (∀ rows : List Value, (rows.mapM compiled.validate).Returns) ∧
      ∃ results last, visitRows.mapM compiled.validate later = (.ok results, last) ∧
        last.times 1 = 5 ∧ last.times 0 = 0 ∧
        ∀ out, results[3]? = some (.ok out) → out.lookup "number" = some (.int 104) := by
  have hslot : visits.slots.count 1 = 1 := by decide
  have hok : (visits.compile ⟨false, "Row"⟩ .empty []).1.isOk = true := by decide +kernel
  refine ⟨hslot, calm_visits, ?_⟩
  generalize hc : visits.compile ⟨false, "Row"⟩ .empty [] = o at hok
  obtain ⟨result, later, records⟩ := o
  cases result with
  | error e => cases hok
  | ok compiled =>
    obtain ⟨hlater, -, hreturns, -, hticks, hidle⟩ := calls_of_run hc
    have hnumber : visits.columns[0] ∈ visits.columns := List.getElem_mem (by decide)
    obtain ⟨n, -, -, ht⟩ := hticks _ hnumber (.counter 1 100) rfl hslot
    obtain ⟨htimes, hshadowed⟩ := hidle _ hnumber (.counter 0 500) (by simp [visits, Rule.shadowed,
      Rule.source?, Rule.layers, Layer.source?, DefaultSource.ofDefault, DefaultSource.factory?])
      (by decide)
    have hempty : Row.lacks n (.dict []) = true := ht.named [] (by simp)
    have hguests (v : Value) : Row.lacks n (.dict [(.text "guests", v)]) = true :=
      ht.named _ (by simp [visits, columnNames])
    have hruns (rows : List Value) : (rows.mapM compiled.validate).Returns :=
      hreturns calm_visits rows
    obtain ⟨results, last, hrun⟩ := hruns visitRows later
    have hone : later = [1] := hlater
    refine ⟨compiled, later, records, rfl, hlater, hruns, results, last, hrun, ?_, ?_,
      fun out hout => ?_⟩
    · have hlast : last.times 1 = later.times 1 + visitRows.countP (Row.lacks n) :=
        ht.rows _ _ _ _ hrun
      rw [hlast, hone]
      simp [visitRows, hempty, hguests, Calls.times]
    · exact (hshadowed _ _ _ _ hrun).trans htimes
    · have hvalue : out.lookup "number" = _ := ht.values 100 (Callable.counts_counter 1 100)
        [.dict [(.text "guests", .text "2")], .dict [(.text "guests", .int 3)], .dict []] _ []
        results last out hrun hout (hguests (.int 4))
      simpa [hempty, hguests, Calls.times] using hvalue

end Tablewright.Table
