import Mathlib.Data.List.Nodup
import Tablewright.Proofs.Row.Columns

namespace Tablewright

namespace Run

theorem mapM_append_eq_ok {f : α → Run β} {xs ys : List α} {calls later : Calls} {zs : List β}
    (h : (xs ++ ys).mapM f calls = (.ok zs, later)) :
    ∃ left mid right, xs.mapM f calls = (.ok left, mid) ∧ ys.mapM f mid = (.ok right, later) ∧
      zs = left ++ right := by
  rw [List.mapM_append] at h
  obtain ⟨left, mid, hleft, h⟩ := bind_eq_ok.mp h
  obtain ⟨right, last, hright, h⟩ := bind_eq_ok.mp h
  cases h
  exact ⟨left, mid, right, hleft, hright, rfl⟩

theorem exists_of_mem_zip {f : α → Run β} {xs : List α} {calls later : Calls} {ys : List β}
    (h : xs.mapM f calls = (.ok ys, later)) {x : α} {y : β} (hm : (x, y) ∈ xs.zip ys) :
    ∃ before after, f x before = (.ok y, after) := by
  induction xs generalizing calls ys with
  | nil => cases hm
  | cons a as ih =>
    obtain ⟨b, mid, bs, hb, hbs, rfl⟩ := mapM_cons_eq_ok h
    obtain hm | hm := List.mem_cons.mp hm
    · cases hm
      exact ⟨calls, mid, hb⟩
    · exact ih hbs hm

end Run

namespace Row

theorem lookup_joinColumns {results : List (String × Except Issues Value)}
    {out : List (String × Value)} (h : joinColumns results = .ok out)
    (hn : (results.map (·.1)).Nodup) {n : String} {r : Except Issues Value}
    (hr : (n, r) ∈ results) : ∃ v, r = .ok v ∧ out.lookup n = some v := by
  induction results generalizing out with
  | nil => cases hr
  | cons p ps ih =>
    obtain ⟨m, first⟩ := p
    cases first with
    | error es =>
      rw [joinColumns_cons_error] at h
      cases h
    | ok w =>
      rw [joinColumns_cons_ok] at h
      cases hj : joinColumns ps with
      | error es =>
        rw [hj] at h
        cases h
      | ok rest =>
        rw [hj] at h
        cases h
        rw [List.map_cons, List.nodup_cons] at hn
        obtain hhead | htail := List.mem_cons.mp hr
        · cases hhead
          exact ⟨w, rfl, List.lookup_cons_self⟩
        · obtain ⟨v, hv, hlookup⟩ := ih hj hn.2 htail
          have hne : n ≠ m := by
            rintro rfl
            exact hn.1 (List.mem_map.mpr ⟨_, htail, rfl⟩)
          exact ⟨v, hv, by rw [List.lookup_cons, beq_false_of_ne hne, hlookup]⟩

theorem eq_of_joinColumns {results : List (String × Except Issues Value)} {es : Issues}
    (h : joinColumns results = .error es) : es = results.flatMap (complaints ·.2) := by
  rw [joinColumns] at h
  split at h
  · cases h
  · cases h
    rfl

/-- Whether an issue is with the value under a key, or with the lack of one. -/
def concerns (key : String) (i : Issue) : Bool := i.path.head? == some (.key key)

theorem head_of_under {key : String} {r : Except Issues Value} {i : Issue}
    (h : i ∈ complaints (Read.under (.key key) r)) : i.path.head? = some (.key key) := by
  cases r with
  | ok v => cases h
  | error es =>
    obtain ⟨j, -, rfl⟩ := List.mem_map.mp h
    rfl

theorem head_of_judgeMissing {column : String} {r : Rule} {calls later : Calls}
    {result : Except Issues Value} (h : judgeMissing column r calls = (.ok result, later))
    {i : Issue} (hi : i ∈ complaints result) : i.path.head? = some (.key column) := by
  rw [judgeMissing] at h
  cases hs : r.source? with
  | some source =>
    rw [hs] at h
    obtain ⟨v, mid, -, h⟩ := Run.bind_eq_ok.mp h
    cases h
    cases hi
  | none =>
    rw [hs] at h
    cases ha : mayBeAbsent r with
    | true =>
      rw [ha] at h
      cases h
      cases hi
    | false =>
      rw [ha] at h
      cases h
      cases List.mem_singleton.mp hi
      rfl

/-- The complaints about a column are told from its name or from that of its field. -/
theorem head_of_judgeColumn {row : Entries} {p : Part} {calls later : Calls}
    {result : Except Issues Value} (h : judgeColumn row p calls = (.ok result, later)) {i : Issue}
    (hi : i ∈ complaints result) :
    i.path.head? = some (.key p.column) ∨ i.path.head? = some (.key p.name.field) := by
  rw [judgeColumn, given] at h
  cases hc : Value.field? row p.column with
  | some v =>
    rw [hc] at h
    obtain ⟨j, mid, -, h⟩ := Run.bind_eq_ok.mp h
    cases h
    exact .inl (head_of_under hi)
  | none =>
    rw [hc] at h
    cases hf : Value.field? row p.name.field with
    | some v =>
      rw [hf] at h
      obtain ⟨j, mid, -, h⟩ := Run.bind_eq_ok.mp h
      cases h
      exact .inr (head_of_under hi)
    | none =>
      rw [hf] at h
      exact .inl (head_of_judgeMissing h hi)

section

variable {columns : List (String × Rule)} {schemas : List Schema} {row : Entries} {p : Part}
  {left right : List Part}

theorem exists_part (hl : schemas.length = columns.length) (hn : (columns.map (·.1)).Nodup)
    {c : String × Rule} (hc : c ∈ columns) :
    ∃ left p right, partsOf columns schemas = left ++ p :: right ∧ (p.column, p.rule) = c ∧
      p.name.column = p.column ∧ p.name ∈ fieldNames (columns.map (·.1)) := by
  obtain ⟨hcolumns, hnames, hparts⟩ := parts_spec (map_column_fieldNames (columns.map (·.1))) hl
  obtain ⟨p, hp, hname⟩ : ∃ p ∈ partsOf columns schemas, p.column = c.1 := by
    rw [← List.mem_map, partsOf, hcolumns]
    exact List.mem_map_of_mem hc
  obtain ⟨left, right, hsplit⟩ := List.append_of_mem hp
  obtain ⟨hcolumn, hmem⟩ := hparts p hp
  refine ⟨left, p, right, hsplit, List.inj_on_of_nodup_map hn hmem hc hname, hcolumn, ?_⟩
  rw [← hnames]
  exact List.mem_map_of_mem hp

theorem judgeColumns_split (hl : schemas.length = columns.length)
    (hp : partsOf columns schemas = left ++ p :: right) {calls later : Calls}
    {result : Except Issues (List (String × Value))}
    (h : judgeColumns columns schemas row calls = (.ok result, later)) :
    ∃ lefts before r after rights, left.mapM (judgeColumn row) calls = (.ok lefts, before) ∧
      judgeColumn row p before = (.ok r, after) ∧
      right.mapM (judgeColumn row) after = (.ok rights, later) ∧
      result = joinColumns ((columns.map (·.1)).zip (lefts ++ r :: rights)) ∧
      (columns.map (·.1)).zip (lefts ++ r :: rights) = (left.map (·.column)).zip lefts
        ++ (p.column, r) :: (right.map (·.column)).zip rights := by
  obtain ⟨results, mid, hm, h⟩ := Run.bind_eq_ok.mp h
  rw [Run.pure_apply, Prod.mk.injEq] at h
  obtain ⟨h, rfl⟩ := h
  rw [hp] at hm
  obtain ⟨lefts, before, rest, hlefts, hrest, rfl⟩ := Run.mapM_append_eq_ok hm
  obtain ⟨r, after, rights, hr, hrights, rfl⟩ := Run.mapM_cons_eq_ok hrest
  refine ⟨lefts, before, r, after, rights, hlefts, hr, hrights, ?_, ?_⟩
  · cases h
    rfl
  · have hcolumns := (parts_spec (map_column_fieldNames (columns.map (·.1))) hl).1
    have hlength : (left.map (·.column)).length = lefts.length := by
      rw [List.length_map, Run.length_of_mapM hlefts]
    rw [← hcolumns, ← partsOf, hp, List.map_append, List.map_cons, List.zip_append hlength,
      List.zip_cons_cons]

theorem lookup_judgeColumns (hl : schemas.length = columns.length)
    (hn : (columns.map (·.1)).Nodup) (hp : partsOf columns schemas = left ++ p :: right)
    {calls later : Calls} {out : List (String × Value)}
    (h : judgeColumns columns schemas row calls = (.ok (.ok out), later)) :
    ∃ lefts before v after, left.mapM (judgeColumn row) calls = (.ok lefts, before) ∧
      judgeColumn row p before = (.ok (.ok v), after) ∧ out.lookup p.column = some v := by
  obtain ⟨lefts, before, r, after, rights, hlefts, hr, -, hout, hzip⟩ := judgeColumns_split hl hp h
  have hnodup := hn.sublist (map_fst_zip_sublist (columns.map (·.1)) (lefts ++ r :: rights))
  have hm : (p.column, r) ∈ (columns.map (·.1)).zip (lefts ++ r :: rights) := by
    rw [hzip]
    exact List.mem_append_right _ List.mem_cons_self
  obtain ⟨v, rfl, hlookup⟩ := lookup_joinColumns hout.symm hnodup hm
  exact ⟨lefts, before, v, after, hlefts, hr, hlookup⟩

theorem filter_complaints_of_ne {ps : List Part} {calls later : Calls}
    {results : List (Except Issues Value)}
    (h : ps.mapM (judgeColumn row) calls = (.ok results, later)) {name : String}
    (hne : ∀ q ∈ ps, q.column ≠ name ∧ q.name.field ≠ name) :
    (((ps.map (·.column)).zip results).flatMap (complaints ·.2)).filter (concerns name) = [] := by
  rw [List.filter_eq_nil_iff]
  intro i hi hc
  obtain ⟨q, hq, hi⟩ := List.mem_flatMap.mp hi
  rw [List.zip_map_left] at hq
  obtain ⟨⟨part, r⟩, hz, rfl⟩ := List.mem_map.mp hq
  obtain ⟨before, after, hr⟩ := Run.exists_of_mem_zip h hz
  obtain ⟨hcolumn, hfield⟩ := hne part (List.of_mem_zip hz).1
  rw [concerns, beq_iff_eq] at hc
  obtain hh | hh := head_of_judgeColumn hr hi
  · rw [hc] at hh
    cases hh
    exact hcolumn rfl
  · rw [hc] at hh
    cases hh
    exact hfield rfl

/-- Parts of columns with different names have different names, and no field is named like the
column of another. -/
theorem apart_of_split (hl : schemas.length = columns.length) (hn : (columns.map (·.1)).Nodup)
    (hp : partsOf columns schemas = left ++ p :: right) :
    ∀ q ∈ left ++ right, q.column ≠ p.column ∧ q.name.field ≠ p.column := by
  obtain ⟨hcolumns, hnames, hparts⟩ := parts_spec (map_column_fieldNames (columns.map (·.1))) hl
  rw [← partsOf, hp] at hcolumns hnames hparts
  have hmiddle := hcolumns ▸ hn
  rw [List.map_append, List.map_cons, List.nodup_middle, ← List.map_append, List.nodup_cons]
    at hmiddle
  intro q hq
  have hne : q.column ≠ p.column := fun he => hmiddle.1 (he ▸ List.mem_map_of_mem hq)
  have hmem : q ∈ left ++ p :: right :=
    ((List.sublist_cons_self p right).append_left left).subset hq
  -- A field that is named like any column is named like its own.
  refine ⟨hne, fun hf => hne ?_⟩
  have hpc : p.column ∈ columns.map (·.1) := by
    rw [← hcolumns]
    simp
  have hkey := key_eq_none_of_mem (hnames ▸ List.mem_map_of_mem hmem) (hf ▸ hpc)
  have hcolumn := (hparts q hmem).1
  rw [FieldName.column, hkey, Option.getD_none, hf] at hcolumn
  exact hcolumn.symm

/-- The complaints about a row that concern one of its columns are those about this column. -/
theorem filter_judgeColumns (hl : schemas.length = columns.length) (hn : (columns.map (·.1)).Nodup)
    (hp : partsOf columns schemas = left ++ p :: right)
    (hg : given row p.column p.name.field = none) {calls later : Calls} {es : Issues}
    (h : judgeColumns columns schemas row calls = (.ok (.error es), later)) :
    ∃ before r after, judgeColumn row p before = (.ok r, after) ∧
      es.filter (concerns p.column) = complaints r := by
  obtain ⟨lefts, before, r, after, rights, hlefts, hr, hrights, hout, hzip⟩ :=
    judgeColumns_split hl hp h
  have hapart := apart_of_split hl hn hp
  refine ⟨before, r, after, hr, ?_⟩
  have hself : (complaints r).filter (concerns p.column) = complaints r := by
    rw [List.filter_eq_self]
    intro i hi
    rw [judgeColumn, hg] at hr
    rw [concerns, beq_iff_eq]
    exact head_of_judgeMissing hr hi
  -- What is wrong with any other column begins with another key.
  rw [eq_of_joinColumns hout.symm, hzip, List.flatMap_append, List.flatMap_cons,
    List.filter_append, List.filter_append, hself,
    filter_complaints_of_ne hlefts fun q hq => hapart q (List.mem_append_left _ hq),
    filter_complaints_of_ne hrights fun q hq => hapart q (List.mem_append_right _ hq),
    List.nil_append, List.append_nil]

end

end Row

end Tablewright
