import Tablewright.Proofs.Row.Names
import Tablewright.Proofs.Row.Quiet

namespace Tablewright.Row

/-- The key that a column is read from, and the value there: its own name comes before the name of
its field. -/
def given (row : Entries) (column field : String) : Option (String × Value) :=
  match Value.field? row column with
  | some v => some (column, v)
  | none => (Value.field? row field).map (field, ·)

/-- What a column brings into a model: its rule, the name of its field and what it accepts. -/
structure Part where
  column : String
  rule : Rule
  name : FieldName
  schema : Schema

/-- What becomes of an absent column: its innermost default, null, or a complaint. -/
def judgeMissing (column : String) (r : Rule) : Run (Except Issues Value) :=
  match r.source? with
  | some source => do
    let v ← source.give
    return .ok (dumped v)
  | none => Pure.pure (if mayBeAbsent r then .ok .null else .error [⟨.missing, [.key column]⟩])

def outcome (j : Judgement) : Except Issues Value := j.map fun b => dumped b.1

def judgeColumn (row : Entries) (p : Part) : Run (Except Issues Value) :=
  match given row p.column p.name.field with
  | some (key, v) => do
    let result ← judge p.schema v
    return Read.under (.key key) (outcome result)
  | none => judgeMissing p.column p.rule

def complaints : Except Issues α → Issues
  | .ok _ => []
  | .error es => es

/-- The columns of a row as one: a value for each of them, or the complaints of all in order. -/
def joinColumns (results : List (String × Except Issues Value)) :
    Except Issues (List (String × Value)) :=
  if results.all (·.2.isOk) then .ok (results.filterMap fun (n, r) => r.toOption.map (n, ·))
  else .error (results.flatMap (complaints ·.2))

theorem judgeAbsent_eq (n : FieldName) (r : Rule) :
    outcome <$> judgeAbsent ⟨n, absence r⟩ = judgeMissing n.column r := by
  rw [judgeAbsent, absence_eq, judgeMissing]
  cases r.source? with
  | none =>
    dsimp only
    cases mayBeAbsent r <;> rfl
  | some source =>
    cases source with
    | value v => rfl
    | factory f =>
      simp only [map_eq_pure_bind, bind_assoc, pure_bind, DefaultSource.give]
      rfl

def Part.toField (p : Part) : Head × Schema := (⟨p.name, absence p.rule⟩, p.schema)

theorem judgeField_toField (row : Entries) {p : Part} (h : p.name.column = p.column) :
    outcome <$> judgeField (judge p.schema) p.toField.1 row = judgeColumn row p := by
  have hfind : findField p.toField.1.name row = given row p.column p.name.field := by
    rw [← h]
    rfl
  rw [judgeField, judgeColumn, hfind]
  cases given row p.column p.name.field with
  | none =>
    rw [← h]
    exact judgeAbsent_eq p.name p.rule
  | some found =>
    obtain ⟨key, v⟩ := found
    dsimp only
    simp only [map_eq_pure_bind, bind_assoc, pure_bind]
    congr 1
    funext result
    cases result <;> rfl

theorem joinColumns_cons_ok (n : String) (v : Value)
    (results : List (String × Except Issues Value)) :
    joinColumns ((n, .ok v) :: results) = (joinColumns results).map ((n, v) :: ·) := by
  have hall : ((n, .ok v) :: results).all (·.2.isOk) = results.all (·.2.isOk) := rfl
  rw [joinColumns, joinColumns, hall]
  cases results.all (·.2.isOk) <;> rfl

theorem flatMap_complaints {results : List (String × Except Issues Value)}
    (h : results.all (·.2.isOk) = true) : results.flatMap (complaints ·.2) = [] := by
  rw [List.flatMap_eq_nil_iff]
  intro p hp
  have hok := List.all_eq_true.mp h p hp
  obtain ⟨n, r⟩ := p
  cases r with
  | ok v => rfl
  | error es => cases hok

theorem joinColumns_cons_error (n : String) (es : Issues)
    (results : List (String × Except Issues Value)) :
    joinColumns ((n, .error es) :: results) = .error (es ++ complaints (joinColumns results)) := by
  have hcons : joinColumns ((n, .error es) :: results) =
      .error (es ++ results.flatMap (complaints ·.2)) := rfl
  rw [hcons, joinColumns]
  split
  · rename_i hall
    rw [flatMap_complaints hall]
    rfl
  · rfl

theorem joinColumns_single (n : String) (r : Except Issues Value) :
    joinColumns [(n, r)] = r.map fun v => [(n, v)] := by
  cases r with
  | ok v => rfl
  | error es =>
    rw [joinColumns_cons_error]
    exact congrArg Except.error (List.append_nil es)

theorem map_joinAll (judgements : List (String × Judgement)) :
    (joinAll judgements).map (fun b => b.1.map fun p => (p.1, dumped p.2)) =
      joinColumns (judgements.map fun p => (p.1, outcome p.2)) := by
  induction judgements with
  | nil => rfl
  | cons p ps ih =>
    obtain ⟨n, j⟩ := p
    rw [joinAll, List.map_cons]
    cases j with
    | ok b =>
      have hok : outcome (.ok b) = .ok (dumped b.1) := rfl
      rw [hok, joinColumns_cons_ok, ← ih]
      cases joinAll ps <;> rfl
    | error es =>
      have herror : outcome (.error es) = .error es := rfl
      rw [herror, joinColumns_cons_error, ← ih]
      -- Judging goes on behind a complaint: the complaints of later columns are kept.
      cases joinAll ps with
      | ok b => simp [joinParts, Except.map, complaints]
      | error fs => rfl

theorem foldl_set_of_nodup {set : List α → α → List α} (key : α → β)
    (h : ∀ xs a, key a ∉ xs.map key → set xs a = xs ++ [a]) (done : List α) {xs : List α}
    (hn : ((done ++ xs).map key).Nodup) : xs.foldl set done = done ++ xs := by
  induction xs generalizing done with
  | nil => rw [List.foldl_nil, List.append_nil]
  | cons a xs ih =>
    have ha : key a ∉ done.map key := by
      rw [List.map_append, List.map_cons] at hn
      intro hm
      exact (List.nodup_append.mp hn).2.2 _ hm _ List.mem_cons_self rfl
    rw [List.foldl_cons, h done a ha, ih (done ++ [a]) (by simpa using hn), List.append_assoc]
    rfl

theorem insertColumn_of_notMem {n : String} {columns : List (String × Value)} (v : Value)
    (h : n ∉ columns.map (·.1)) : insertColumn n v columns = columns ++ [(n, v)] := by
  induction columns with
  | nil => rfl
  | cons c cs ih =>
    rw [List.map_cons, List.mem_cons, not_or] at h
    rw [insertColumn, if_neg (Ne.symm h.1), ih h.2]
    rfl

theorem distinctColumns_of_nodup {columns : List (String × Value)}
    (h : (columns.map (·.1)).Nodup) : distinctColumns columns = columns :=
  foldl_set_of_nodup Prod.fst (fun _ p hp => insertColumn_of_notMem p.2 hp) [] h

theorem insertField_of_notMem {f : Head × Schema} {fs : List (Head × Schema)}
    (h : f.1.name.field ∉ fs.map (·.1.name.field)) : insertField f fs = fs ++ [f] := by
  induction fs with
  | nil => rfl
  | cons g gs ih =>
    rw [List.map_cons, List.mem_cons, not_or] at h
    rw [insertField, if_neg (Ne.symm h.1), ih h.2]
    rfl

def parts : List (String × Rule) → List FieldName → List Schema → List Part
  | c :: cs, n :: ns, s :: ss => ⟨c.1, c.2, n, s⟩ :: parts cs ns ss
  | _, _, _ => []

def partsOf (columns : List (String × Rule)) (schemas : List Schema) : List Part :=
  parts columns (fieldNames (columns.map (·.1))) schemas

def judgeColumns (columns : List (String × Rule)) (schemas : List Schema) (row : Entries) :
    Run (Except Issues (List (String × Value))) := do
  let results ← (partsOf columns schemas).mapM (judgeColumn row)
  return joinColumns ((columns.map (·.1)).zip results)

def schemasOf? (model : String) (columns : List (String × Rule)) : Option (List Schema) :=
  columns.mapM fun c => schema? (model ++ pascal c.1) c.2

theorem parts_spec {columns : List (String × Rule)} {names : List FieldName}
    {schemas : List Schema} (hn : names.map (·.column) = columns.map (·.1))
    (hs : schemas.length = columns.length) :
    (parts columns names schemas).map (·.column) = columns.map (·.1) ∧
      (parts columns names schemas).map (·.name) = names ∧
      ∀ p ∈ parts columns names schemas,
        p.name.column = p.column ∧ (p.column, p.rule) ∈ columns := by
  induction columns generalizing names schemas with
  | nil =>
    cases names with
    | nil => exact ⟨rfl, rfl, by rintro p ⟨⟩⟩
    | cons n ns => cases hn
  | cons c cs ih =>
    rcases names with _ | ⟨n, ns⟩
    · cases hn
    · rcases schemas with _ | ⟨s, ss⟩
      · cases hs
      · rw [List.map_cons, List.map_cons, List.cons.injEq] at hn
        obtain ⟨hcolumns, hnames, hall⟩ := ih hn.2 (Nat.succ.inj hs)
        refine ⟨congrArg (c.1 :: ·) hcolumns, congrArg (n :: ·) hnames, ?_⟩
        intro p hp
        obtain rfl | hp := List.mem_cons.mp hp
        · exact ⟨hn.1, List.mem_cons_self⟩
        · exact ⟨(hall p hp).1, List.mem_cons_of_mem c (hall p hp).2⟩

theorem fields?_eq {model : String} {columns : List (String × Rule)} {names : List FieldName}
    {fs : List (Head × Schema)} (hl : columns.length = names.length)
    (h : fields? model columns names = some fs) :
    ∃ schemas, schemasOf? model columns = some schemas ∧ schemas.length = columns.length ∧
      fs = (parts columns names schemas).map Part.toField := by
  induction columns generalizing names fs with
  | nil =>
    rw [fields?] at h
    · cases h
      exact ⟨[], rfl, rfl, rfl⟩
    · rintro c r cs n ns ⟨⟩
  | cons c cs ih =>
    obtain ⟨column, r⟩ := c
    cases names with
    | nil => cases hl
    | cons n ns =>
      rw [fields?] at h
      split at h
      · rename_i s gs hs hgs
        cases h
        obtain ⟨schemas, hm, hlength, rfl⟩ := ih (Nat.succ.inj hl) hgs
        refine ⟨s :: schemas, ?_, by rw [List.length_cons, hlength]; rfl, rfl⟩
        rw [schemasOf?] at hm
        rw [schemasOf?, List.mapM_cons, hs, hm]
        rfl
      · cases h

theorem schema?_of_mem_parts {model : String} {columns : List (String × Rule)}
    {names : List FieldName} {schemas : List Schema} (hs : schemasOf? model columns = some schemas)
    {p : Part} (hp : p ∈ parts columns names schemas) :
    schema? (model ++ pascal p.column) p.rule = some p.schema := by
  induction columns generalizing names schemas with
  | nil => cases hp
  | cons c cs ih =>
    rw [schemasOf?, List.mapM_cons] at hs
    obtain ⟨s, hc, hs⟩ := Option.bind_eq_some_iff.mp hs
    obtain ⟨ss, hcs, hs⟩ := Option.bind_eq_some_iff.mp hs
    cases hs
    cases names with
    | nil => cases hp
    | cons n ns =>
      obtain rfl | hp := List.mem_cons.mp hp
      · exact hc
      · exact ih hcs hp

theorem exists_fields? {model : String} {columns : List (String × Rule)} {schemas : List Schema}
    (h : schemasOf? model columns = some schemas) (names : List FieldName) :
    ∃ fs, fields? model columns names = some fs := by
  induction columns generalizing schemas names with
  | nil =>
    refine ⟨[], ?_⟩
    rw [fields?]
    rintro c r cs n ns ⟨⟩
  | cons c cs ih =>
    obtain ⟨column, r⟩ := c
    rw [schemasOf?, List.mapM_cons] at h
    obtain ⟨s, hs, h⟩ := Option.bind_eq_some_iff.mp h
    obtain ⟨ss, hss, -⟩ := Option.bind_eq_some_iff.mp h
    cases names with
    | nil =>
      refine ⟨[], ?_⟩
      rw [fields?]
      rintro c s cs n ns - ⟨⟩
    | cons n ns =>
      obtain ⟨fs, hfs⟩ := ih hss ns
      refine ⟨(⟨n, absence r⟩, s) :: fs, ?_⟩
      rw [fields?, hfs]
      dsimp only at hs
      rw [hs]

theorem exists_ofColumns? {name : String} {columns : List (String × Rule)} {schemas : List Schema}
    (h : schemasOf? name columns = some schemas) : ∃ m, Model.ofColumns? name columns = some m := by
  obtain ⟨fs, hfs⟩ := exists_fields? h (fieldNames (columns.map (·.1)))
  exact ⟨_, by rw [Model.ofColumns?, hfs]; rfl⟩

section

variable {columns : List (String × Rule)} {schemas : List Schema}

theorem length_fieldNames : (fieldNames (columns.map (·.1))).length = columns.length := by
  have h := congrArg List.length (map_column_fieldNames (columns.map (·.1)))
  rwa [List.length_map, List.length_map] at h

theorem names_of_fields? {model : String} {fs : List (Head × Schema)}
    (h : fields? model columns (fieldNames (columns.map (·.1))) = some fs) :
    fs.map (·.1.name) = fieldNames (columns.map (·.1)) := by
  obtain ⟨schemas, -, hl, rfl⟩ := fields?_eq length_fieldNames.symm h
  rw [List.map_map]
  exact (parts_spec (map_column_fieldNames (columns.map (·.1))) hl).2.1

theorem columns_of_fields? {model : String} {fs : List (Head × Schema)}
    (h : fields? model columns (fieldNames (columns.map (·.1))) = some fs) :
    fs.map (·.1.name.column) = columns.map (·.1) := by
  have hmap : fs.map (·.1.name.column) = (fs.map (·.1.name)).map (·.column) := by
    rw [List.map_map]
    rfl
  rw [hmap, names_of_fields? h, map_column_fieldNames]

theorem length_of_schemasOf? {model : String} (h : schemasOf? model columns = some schemas) :
    schemas.length = columns.length := by
  obtain ⟨fs, hfs⟩ := exists_fields? h (fieldNames (columns.map (·.1)))
  obtain ⟨others, hothers, hl, -⟩ := fields?_eq length_fieldNames.symm hfs
  cases h.symm.trans hothers
  exact hl

/-- The fields of a model are those of its columns, none of which replaces another. -/
theorem fields_ofColumns? {name : String} {m : Model} (hm : Model.ofColumns? name columns = some m)
    (hn : (columns.map (·.1)).Nodup) :
    ∃ schemas, schemasOf? name columns = some schemas ∧ schemas.length = columns.length ∧
      m.fields = (partsOf columns schemas).map Part.toField ∧
      fields? name columns (fieldNames (columns.map (·.1))) = some m.fields := by
  obtain ⟨fs, hfs, rfl⟩ := Option.map_eq_some_iff.mp hm
  obtain ⟨schemas, hs, hl, hparts⟩ := fields?_eq length_fieldNames.symm hfs
  have hnodup : (fs.map (·.1.name.field)).Nodup := by
    have hnames := (parts_spec (map_column_fieldNames (columns.map (·.1))) hl).2.1
    have hfields := nodup_fieldNames hn
    rw [← hnames, List.map_map] at hfields
    rw [hparts, List.map_map]
    exact hfields
  have hfold := foldl_set_of_nodup (fun f : Head × Schema => f.1.name.field)
    (fun _ _ hf => insertField_of_notMem hf) [] hnodup
  have hm : fs.foldl (fun done f => insertField f done) [] = fs := hfold
  dsimp only
  exact ⟨schemas, hs, hl, by rw [hm, hparts]; rfl, by rw [hm, hfs]⟩

theorem names_of_joinColumns {results : List (String × Except Issues Value)}
    {out : List (String × Value)} (h : joinColumns results = .ok out) :
    out.map (·.1) = results.map (·.1) := by
  induction results generalizing out with
  | nil =>
    cases h
    rfl
  | cons p ps ih =>
    obtain ⟨n, r⟩ := p
    cases r with
    | error es =>
      rw [joinColumns_cons_error] at h
      cases h
    | ok v =>
      rw [joinColumns_cons_ok] at h
      cases hj : joinColumns ps with
      | error es =>
        rw [hj] at h
        cases h
      | ok rest =>
        rw [hj] at h
        cases h
        exact congrArg (n :: ·) (ih hj)

theorem names_of_joinAll {judgements : List (String × Judgement)} {out : List (String × Value)}
    {fit : Fit} (h : joinAll judgements = .ok (out, fit)) :
    out.map (·.1) = judgements.map (·.1) := by
  have hjoin := map_joinAll judgements
  rw [h] at hjoin
  have hnames := names_of_joinColumns hjoin.symm
  rw [List.map_map, List.map_map] at hnames
  exact hnames

theorem map_fst_zip_sublist (xs : List α) (ys : List β) :
    ((xs.zip ys).map (·.1)).Sublist xs := by
  induction xs generalizing ys with
  | nil => exact List.Sublist.refl _
  | cons x xs ih =>
    cases ys with
    | nil => exact List.nil_sublist _
    | cons y ys => exact (ih ys).cons_cons x

/-- When no two columns share a name, none is lost where columns of a name are merged. -/
theorem map_distinctColumns {names : List String} (hn : names.Nodup) (js : List Judgement) :
    (joinAll (names.zip js)).map
        (fun b => (distinctColumns b.1).map fun p => (p.1, dumped p.2)) =
      joinColumns (names.zip (js.map outcome)) := by
  have hd : (joinAll (names.zip js)).map
        (fun b => (distinctColumns b.1).map fun p => (p.1, dumped p.2)) =
      (joinAll (names.zip js)).map (fun b => b.1.map fun p => (p.1, dumped p.2)) := by
    cases hj : joinAll (names.zip js) with
    | error es => rfl
    | ok b =>
      obtain ⟨out, fit⟩ := b
      have hout : (out.map (·.1)).Nodup := by
        rw [names_of_joinAll hj]
        exact hn.sublist (map_fst_zip_sublist names js)
      simp only [Except.map, distinctColumns_of_nodup hout]
  rw [hd, map_joinAll, List.zip_map_right]
  rfl

def dumpedColumns (r : Except Issues (List (String × Value) × Fit)) :
    Except Issues (List (String × Value)) :=
  r.map fun b => (distinctColumns b.1).map fun p => (p.1, dumped p.2)

theorem map_judgeFields (hl : schemas.length = columns.length) (hn : (columns.map (·.1)).Nodup)
    (row : Entries) :
    dumpedColumns <$> judgeFields ((partsOf columns schemas).map Part.toField) row =
      judgeColumns columns schemas row := by
  obtain ⟨hcolumns, -, hparts⟩ := parts_spec (map_column_fieldNames (columns.map (·.1))) hl
  have hnames : ((partsOf columns schemas).map Part.toField).map (·.1.name.column) =
      columns.map (·.1) := by
    rw [← hcolumns, List.map_map]
    exact List.map_congr_left fun p hp => (hparts p hp).1
  have hjudge : (partsOf columns schemas).mapM (judgeColumn row) =
      List.map outcome <$> (partsOf columns schemas).mapM fun p =>
        judgeField (judge p.schema) p.toField.1 row := by
    rw [← Run.mapM_map]
    exact Run.mapM_congr fun p hp => (judgeField_toField row (hparts p hp).1).symm
  rw [judgeColumns, judgeFields_eq, hnames, hjudge, List.mapM_map]
  simp only [map_eq_pure_bind, bind_assoc, pure_bind, dumpedColumns, map_distinctColumns hn]
  rfl

/-- Every column of a row is judged by itself, in order, and the outcomes are joined. -/
theorem validate_eq {name : String} {m : Model} (hm : Model.ofColumns? name columns = some m)
    (hn : (columns.map (·.1)).Nodup) :
    ∃ schemas, schemasOf? name columns = some schemas ∧ schemas.length = columns.length ∧
      ∀ row, m.validate (.dict row) = judgeColumns columns schemas row := by
  obtain ⟨schemas, hs, hl, hfields, -⟩ := fields_ofColumns? hm hn
  refine ⟨schemas, hs, hl, fun row => ?_⟩
  rw [← map_judgeFields hl hn, ← hfields, map_eq_pure_bind]
  rfl

theorem dumpedFields_eq (fields : List (String × Value)) :
    dumpedFields fields = fields.map fun p => (.text p.1, dumped p.2) := by
  induction fields with
  | nil => rfl
  | cons p ps ih =>
    obtain ⟨n, v⟩ := p
    rw [dumpedFields, ih]
    rfl

theorem exists_schema?_of_single {name column : String} {r : Rule} {m : Model}
    (hm : Model.ofColumns? name [(column, r)] = some m) :
    ∃ s, schema? (name ++ pascal column) r = some s := by
  obtain ⟨schemas, hs, -⟩ := validate_eq hm (by simp)
  rw [schemasOf?, List.mapM_cons] at hs
  obtain ⟨s, hs, -⟩ := Option.bind_eq_some_iff.mp hs
  exact ⟨s, hs⟩

theorem validate_single {name column : String} {r : Rule} {s : Schema}
    (hs : schema? (name ++ pascal column) r = some s) (v : Value) :
    ∃ m, Model.ofColumns? name [(column, r)] = some m ∧
      m.validate (.dict [(.text column, v)]) = (do
        let result ← judge s v
        return (Read.under (.key column) (outcome result)).map fun w => [(column, w)]) := by
  have hschemas : schemasOf? name [(column, r)] = some [s] := by
    rw [schemasOf?, List.mapM_cons]
    dsimp only
    rw [hs]
    rfl
  obtain ⟨m, hm⟩ := exists_ofColumns? hschemas
  obtain ⟨schemas, hs', hl, heq⟩ := validate_eq hm (by simp)
  rw [hschemas, Option.some.injEq] at hs'
  subst hs'
  refine ⟨m, hm, ?_⟩
  have hlength : (fieldNames ([(column, r)].map (·.1))).length = 1 := length_fieldNames
  obtain ⟨n, hn⟩ := List.length_eq_one_iff.mp hlength
  have hparts : partsOf [(column, r)] [s] = [⟨column, r, n, s⟩] := by
    rw [partsOf, hn]
    rfl
  have hgiven : given [(.text column, v)] column n.field = some (column, v) := by
    have hfield : Value.field? [(.text column, v)] column = some v := by
      simp [Value.field?, Value.isText]
    rw [given, hfield]
  rw [heq, judgeColumns, hparts, List.mapM_cons, judgeColumn, hgiven]
  simp only [List.mapM_nil, bind_assoc, pure_bind]
  congr 1
  funext result
  exact congrArg Pure.pure (joinColumns_single column _)

theorem text_of_field? {row : Entries} {name : String} {v : Value}
    (h : Value.field? row name = some v) : ∃ e ∈ row, e.1 = .text name := by
  obtain ⟨e, he, -⟩ := Option.map_eq_some_iff.mp h
  refine ⟨e, List.mem_of_find?_eq_some he, ?_⟩
  have ht := List.find?_some he
  obtain ⟨k, w⟩ := e
  cases k with
  | text s => exact congrArg Value.text (beq_iff_eq.mp ht)
  | _ => cases ht

theorem given_of_columns {row : Entries}
    (h : ∀ e ∈ row, ∀ s, e.1 = .text s → s ∈ columns.map (·.1)) {p : Part}
    (hname : p.name ∈ fieldNames (columns.map (·.1))) (hp : p.name.column = p.column) :
    given row p.column p.name.field = (Value.field? row p.column).map (p.column, ·) := by
  rw [given]
  cases hc : Value.field? row p.column with
  | some v => rfl
  | none =>
    cases hf : Value.field? row p.name.field with
    | none => rfl
    | some v =>
      obtain ⟨e, he, ht⟩ := text_of_field? hf
      have hkey := key_eq_none_of_mem hname (h e he p.name.field ht)
      rw [FieldName.column, hkey, Option.getD_none] at hp
      rw [hp, hc] at hf
      cases hf

theorem names_of_judgeColumns (hl : schemas.length = columns.length) {row : Entries}
    {calls later : Calls} {out : List (String × Value)}
    (h : judgeColumns columns schemas row calls = (.ok (.ok out), later)) :
    out.map (·.1) = columns.map (·.1) := by
  obtain ⟨results, mid, hr, h⟩ := Run.bind_eq_ok.mp h
  rw [Run.pure_apply, Prod.mk.injEq] at h
  have hlength : (partsOf columns schemas).length = columns.length := by
    have hcolumns := (parts_spec (map_column_fieldNames (columns.map (·.1))) hl).1
    have hlengths := congrArg List.length hcolumns
    rwa [List.length_map, List.length_map] at hlengths
  have hle : (columns.map (·.1)).length ≤ results.length := by
    rw [List.length_map]
    exact Nat.le_of_eq (hlength.symm.trans (Run.length_of_mapM hr).symm)
  rw [names_of_joinColumns (Except.ok.inj h.1)]
  exact List.map_fst_zip hle

theorem returns_judgeColumns {row : Entries}
    (h : ∀ p ∈ partsOf columns schemas, (judgeColumn row p).Returns) :
    (judgeColumns columns schemas row).Returns :=
  (Run.Returns.mapM h).bind fun _ _ => Run.returns_pure _

theorem judgeColumns_congr {row other : Entries}
    (h : ∀ p ∈ partsOf columns schemas,
      Value.field? row p.column = Value.field? other p.column ∧
        Value.field? row p.name.field = Value.field? other p.name.field) :
    judgeColumns columns schemas row = judgeColumns columns schemas other := by
  have hjudge : (partsOf columns schemas).mapM (judgeColumn row) =
      (partsOf columns schemas).mapM (judgeColumn other) := by
    refine Run.mapM_congr fun p hp => ?_
    obtain ⟨hcolumn, hfield⟩ := h p hp
    rw [judgeColumn, judgeColumn, given, given, hcolumn, hfield]
  rw [judgeColumns, judgeColumns, hjudge]

theorem endedBy_judgeMissing (column : String) (r : Rule) :
    (judgeMissing column r).EndedBy r.Raises := by
  rw [judgeMissing]
  cases hs : r.source? with
  | none => exact Run.endedBy_pure _ _
  | some source =>
    refine Run.EndedBy.bind ?_ fun v _ => Run.endedBy_pure _ _
    cases source with
    | value v => exact Run.endedBy_pure _ v
    | factory f =>
      have hf := r.factories_subset_everyFactory (Rule.mem_factories_of_source? hs)
      exact f.endedBy_supply.mono fun _ _ h => .inr ⟨f, hf, h⟩

theorem endedBy_judgeColumn {name : String} {p : Part}
    (hs : schema? name p.rule = some p.schema) (row : Entries) :
    (judgeColumn row p).EndedBy p.rule.Raises := by
  rw [judgeColumn]
  cases given row p.column p.name.field with
  | none => exact endedBy_judgeMissing p.column p.rule
  | some found => exact (endedBy_judge hs found.2).bind fun _ _ => Run.endedBy_pure _ _

/-- What ends the validation of a row is raised by the function called last, which belongs to one of
the columns. -/
theorem endedBy_validate {name : String} {m : Model}
    (hm : Model.ofColumns? name columns = some m) (hn : (columns.map (·.1)).Nodup) (row : Value) :
    (m.validate row).EndedBy fun slot f => ∃ c ∈ columns, c.2.Raises slot f := by
  obtain ⟨schemas, hs, hl, heq⟩ := validate_eq hm hn
  obtain ⟨-, -, hparts⟩ := parts_spec (map_column_fieldNames (columns.map (·.1))) hl
  cases row with
  | dict entries =>
    rw [heq, judgeColumns]
    refine Run.EndedBy.bind ((Run.closed_endedBy _).mapM fun p hp => ?_) fun _ _ =>
      Run.endedBy_pure _ _
    refine (endedBy_judgeColumn (schema?_of_mem_parts hs hp) entries).mono fun slot f hf => ?_
    exact ⟨(p.column, p.rule), (hparts p hp).2, hf⟩
  | _ => exact Run.endedBy_pure _ _

theorem returns_validate {name : String} {m : Model}
    (hm : Model.ofColumns? name columns = some m) (hn : (columns.map (·.1)).Nodup)
    (hcalm : ∀ c ∈ columns, c.2.Calm) (row : Value) : (m.validate row).Returns :=
  (endedBy_validate hm hn row).returns fun slot f ⟨c, hc, hf⟩ => hcalm c hc slot f hf

/-- Rows are validated column by column. What becomes of a row is decided by what becomes of each
column by itself; nothing else in the row counts. Only a fault that a function of some column raises
can end the run, so there always is a result when conditions and default functions behave. -/
theorem validate_columns {name : String} {m : Model}
    (hm : Model.ofColumns? name columns = some m) (hn : (columns.map (·.1)).Nodup) :
    ∃ schemas, schemasOf? name columns = some schemas ∧
      (∀ row, m.validate (.dict row) = judgeColumns columns schemas row) ∧
      (∀ row calls later out, m.validate (.dict row) calls = (.ok (.ok out), later) →
        out.map (·.1) = columns.map (·.1)) ∧
      ((∀ c ∈ columns, c.2.Calm) → ∀ row, (m.validate (.dict row)).Returns) ∧
      (∀ row, (m.validate row).EndedBy fun slot f => ∃ c ∈ columns, c.2.Raises slot f) ∧
      (∀ row, (∀ p ∈ partsOf columns schemas, (judgeColumn row p).Returns) →
        (m.validate (.dict row)).Returns) ∧
      (∀ row other, (∀ p ∈ partsOf columns schemas,
          Value.field? row p.column = Value.field? other p.column ∧
            Value.field? row p.name.field = Value.field? other p.name.field) →
        m.validate (.dict row) = m.validate (.dict other)) ∧
      ∀ row : Entries, (∀ e ∈ row, ∀ s, e.1 = .text s → s ∈ columns.map (·.1)) →
        ∀ p ∈ partsOf columns schemas,
          given row p.column p.name.field = (Value.field? row p.column).map (p.column, ·) := by
  obtain ⟨schemas, hs, hl, heq⟩ := validate_eq hm hn
  obtain ⟨-, hnames, hparts⟩ := parts_spec (map_column_fieldNames (columns.map (·.1))) hl
  refine ⟨schemas, hs, heq, ?_, fun hcalm row => returns_validate hm hn hcalm (.dict row),
    endedBy_validate hm hn, ?_, ?_, ?_⟩
  · intro row calls later out h
    rw [heq] at h
    exact names_of_judgeColumns hl h
  · intro row hreturns
    rw [heq]
    exact returns_judgeColumns hreturns
  · intro row other hagree
    rw [heq, heq, judgeColumns_congr hagree]
  · intro row hrow p hp
    have hname : p.name ∈ fieldNames (columns.map (·.1)) := by
      rw [← hnames]
      exact List.mem_map.mpr ⟨p, hp, rfl⟩
    exact given_of_columns hrow hname (hparts p hp).1

def crossed : List (String × Rule) :=
  [("class", .scalar [⟨.ofTest 0 fun _ => .error (.value "custom"), "refused"⟩]
      (.string (.plain none))),
    ("column_0", .layer [] .nullable (.scalar [⟨.ofTest 1 fun v => .ok v.isTruthy, "zero"⟩] .any)),
    ("_note", .layer [] (.default .null (some (.counter 2 3))) (.scalar [] .bigint))]

theorem quiet_crossed : ∀ c ∈ crossed, c.2.Quiet := by
  intro c hc
  simp only [crossed, List.mem_cons, List.not_mem_nil, or_false] at hc
  obtain rfl | rfl | rfl := hc
  · refine ⟨?_, by rintro f ⟨⟩⟩
    intro d hd v f hf
    cases List.mem_singleton.mp hd
    cases hf
    rfl
  · refine ⟨?_, by rintro f ⟨⟩⟩
    intro d hd v f hf
    cases List.mem_singleton.mp hd
    cases hf
  · refine ⟨by rintro d ⟨⟩, ?_⟩
    intro f hf n
    cases List.mem_singleton.mp hf
    exact ⟨_, rfl⟩

theorem validate_columns_crossed :
    (crossed.map (·.1)).Nodup ∧ (∀ c ∈ crossed, c.2.Quiet) ∧
    ∃ m schemas, Model.ofColumns? "Row" crossed = some m ∧ schemasOf? "Row" crossed = some schemas ∧
      (∀ row, m.validate (.dict row) = judgeColumns crossed schemas row) ∧
      ∀ row, (m.validate (.dict row)).Returns := by
  have hn : (crossed.map (·.1)).Nodup := by decide
  obtain ⟨m, hm⟩ : ∃ m, Model.ofColumns? "Row" crossed = some m := exists_ofColumns? rfl
  obtain ⟨schemas, hs, heq, -, hreturns, -⟩ := validate_columns hm hn
  exact ⟨hn, quiet_crossed, m, schemas, hm, hs, heq, hreturns fun c hc => (quiet_crossed c hc).calm⟩

end

end Tablewright.Row
