import Tablewright.Proofs.Row.Positions
import Tablewright.Proofs.Table.Calls

namespace Tablewright.Table

open Row (Place Pinpoints)

def place (suffix : String) (t : Table) (entries : Entries) (calls : Calls) : Place :=
  ⟨Row.Model.nameOf t.name suffix, .object [] (t.columns.map fun c => (c.name, c.rule)),
    .dict entries, calls⟩

/-- Whatever is reported about a row is reported at its place, and all that is wrong is reported.
Only a fault that a function of some column raises keeps a row from having a result, so every row
has one when no function raises any on the values that come to it. -/
theorem validate_pinpoints {suffix : String} {t : Table} {m : Row.Model}
    (hm : rowModel? suffix t.name t.columns = some m) (hn : t.columnNames.Nodup)
    (hplain : ∀ c ∈ t.columns, c.rule.Plain) (entries : Entries) :
    ((m.validate (.dict entries)).EndedBy fun slot f => ∃ c ∈ t.columns, c.rule.Raises slot f) ∧
      ((∀ c ∈ t.columns, c.rule.Calm) → (m.validate (.dict entries)).Returns) ∧
      ∀ calls r later, m.validate (.dict entries) calls = (.ok r, later) →
        Pinpoints (t.place suffix entries calls) r := by
  have hnames : ((t.columns.map fun c => (c.name, c.rule)).map (·.1)).Nodup := by
    rw [map_fst_pairs]
    exact hn
  refine ⟨?_, fun hcalm => Row.returns_validate hm hnames (List.forall_mem_map.mpr hcalm) _, ?_⟩
  · refine (Row.endedBy_validate hm hnames _).mono fun slot f hf => ?_
    obtain ⟨p, hp, hraises⟩ := hf
    obtain ⟨c, hc, rfl⟩ := List.mem_map.mp hp
    exact ⟨c, hc, hraises⟩
  · intro calls r later h
    obtain ⟨-, -, -, -, hfields⟩ := Row.fields_ofColumns? hm hnames
    have hname : m.name = Row.Model.nameOf t.name suffix := by
      obtain ⟨fs, -, rfl⟩ := Option.map_eq_some_iff.mp hm
      rfl
    have hschema : Row.schema? m.name (.object [] (t.columns.map fun c => (c.name, c.rule))) =
        some (.object m.name m.fields) := by
      rw [Row.schema?, hname, hfields]
      rfl
    have hrule : (Rule.object [] (t.columns.map fun c => (c.name, c.rule))).Plain :=
      ⟨hnames, plainIn_iff.mpr (List.forall_mem_map.mpr hplain)⟩
    obtain ⟨result, hj, hcomplaints, hok⟩ := Row.exists_judge_of_validate h
    have hpinpoints := Row.pinpoints_judge hrule hschema hj
    rw [hname] at hpinpoints
    exact hpinpoints.congr hcomplaints.symm hok.symm

/-- Parcels: names that are no identifiers, objects in an array, and refinements of a leaf, of a
container and of a layer. -/
def parcels : Table where
  name := "parcels"
  columns := [⟨"class", .layer [] .nullable (.scalar [⟨.even 2, "odd"⟩] .bigint), false, none⟩,
    ⟨"lines", .array [⟨.ofTest 0 fun v => .ok v.isTruthy, "no lines"⟩]
      (.object [] [("from", .scalar [] .bigint), ("count", .scalar [⟨.even 3, "odd"⟩] .bigint)]),
      false, none⟩,
    ⟨"tags", .layer [⟨.ofTest 1 fun _ => .ok false, "no tags here"⟩] .optional
      (.array [] (.scalar [] .bigint)), false, none⟩,
    ⟨"sent", .scalar [] .boolean, false, none⟩]
  primaryKeys := []
  indexes := []
  description := none

def parcel : Entries :=
  [(.text "column_0", .text "7"),
    (.text "lines", .list [.dict [(.text "from", .int 1), (.text "count", .text "2")],
      .dict [(.text "column_0", .text "y"), (.text "count", .text "3")], .dict [], .int 5]),
    (.text "tags", .tuple [.int 1, .text "2"])]

theorem plain_parcels : ∀ c ∈ parcels.columns, c.rule.Plain := by
  simp [parcels, Rule.Plain, PlainIn]

/-- Whether a row is accepted, and the paths of all that is reported about it. -/
def told? (m? : Option Row.Model) (entries : Entries) : Option (Bool × List (List Step)) :=
  m?.bind fun m => (m.validate (.dict entries) []).1.toOption.map fun r =>
    (r.isOk, (Row.complaints r).map (·.path))

theorem validate_pinpoints_parcels :
    parcels.columnNames.Nodup ∧ (∀ c ∈ parcels.columns, c.rule.Plain) ∧
    ∃ m r later, rowModel? "Row" parcels.name parcels.columns = some m ∧
      m.validate (.dict parcel) [] = (.ok r, later) ∧
      (Row.complaints r).map (·.path) = [[.key "column_0"],
        [.key "lines", .index 1, .key "column_0"], [.key "lines", .index 1, .key "count"],
        [.key "lines", .index 2, .key "from"], [.key "lines", .index 2, .key "count"],
        [.key "lines", .index 3], [.key "tags"], [.key "sent"]] ∧
      Pinpoints (parcels.place "Row" parcel []) r := by
  have hn : parcels.columnNames.Nodup := by decide
  have hpaths : told? (rowModel? "Row" parcels.name parcels.columns) parcel =
      some (false, [[.key "column_0"], [.key "lines", .index 1, .key "column_0"],
        [.key "lines", .index 1, .key "count"], [.key "lines", .index 2, .key "from"],
        [.key "lines", .index 2, .key "count"], [.key "lines", .index 3], [.key "tags"],
        [.key "sent"]]) := by
    decide +kernel
  obtain ⟨m, hm, hpaths⟩ := Option.bind_eq_some_iff.mp hpaths
  obtain ⟨-, -, hpinpoints⟩ := validate_pinpoints hm hn plain_parcels parcel
  generalize hr : m.validate (.dict parcel) [] = run at hpaths
  obtain ⟨result, later⟩ := run
  cases result with
  | error f => cases hpaths
  | ok r =>
    exact ⟨hn, plain_parcels, m, r, later, hm, hr, congrArg Prod.snd (Option.some.inj hpaths),
      hpinpoints [] r later hr⟩

def doubted : Rule :=
  .scalar [⟨.ofTest 0 fun _ => .error (.invalid [⟨.missing, [.key "a"]⟩, ⟨.missing, [.key "a"]⟩]),
    "unfit"⟩] .bigint

/-- A row that lacks a column may give it under the name of its field. The positions in a set lead
to nothing, and neither do the paths of a refinement with a validation of its own, which may name
one place twice. -/
theorem paths_astray :
    (told? (Row.Model.ofColumns? "Row" [("class", .scalar [] .bigint)])
        [(.text "column_0", .int 5)] = some (true, []) ∧
      Value.field? [(.text "column_0", .int 5)] "class" = none) ∧
    (told? (Row.Model.ofColumns? "Row" [("tags", .array [] (.scalar [] .bigint))])
        [(.text "tags", .set [.text "x"])] = some (false, [[.key "tags", .index 0]]) ∧
      (Value.dict [(.text "tags", .set [.text "x"])]).follow? [.key "tags", .index 0] = none) ∧
    told? (Row.Model.ofColumns? "Row" [("n", doubted)]) [(.text "n", .int 1)] =
        some (false, [[.key "n", .key "a"], [.key "n", .key "a"]]) ∧
      (Value.dict [(.text "n", .int 1)]).follow? [.key "n", .key "a"] = none := by
  refine ⟨⟨?_, rfl⟩, ⟨?_, rfl⟩, ?_, rfl⟩ <;> decide +kernel

end Tablewright.Table
