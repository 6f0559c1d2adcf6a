import Tablewright.Proofs.Row.FixedPoint
import Tablewright.Proofs.Table.Calls

namespace Tablewright

open Row

/-- A layer without a default function, whose default value the rule below accepts unchanged. -/
def Layer.Suits (name : String) (r : Rule) : Layer → Prop
  | .optional | .nullable => True
  | .default v none => ∀ s, schema? name r = some s → Keeps s v
  | .default _ (some _) => False

mutual

/-- Rules without unions and default functions, whose refinements are neither on layers nor on
undefined leaves. -/
def Rule.Stable (name : String) : Rule → Prop
  | .layer checks l r => checks = [] ∧ l.Suits name r ∧ r.Stable name
  | .scalar checks s => s = .undefined → checks = []
  | .union .. => False
  | .array _ r => r.Stable (name ++ "Item")
  | .object _ shape => (shape.map (·.1)).Nodup ∧ StableIn name shape

def StableIn (model : String) : List (String × Rule) → Prop
  | [] => True
  | (column, r) :: shape => r.Stable (model ++ pascal column) ∧ StableIn model shape

end

def Rule.holdsObjects : Rule → Bool
  | .layer _ _ r | .array _ r => r.holdsObjects
  | .scalar .. => false
  | .union .. | .object .. => true

mutual

/-- Where there are objects, refinements accept both or neither of two values that are written out
alike. -/
def Rule.Blind : Rule → Prop
  | .layer _ _ r => r.Blind
  | .scalar .. | .union .. => True
  | .array checks r => (r.holdsObjects = true → ∀ c ∈ checks, c.Blind) ∧ r.Blind
  | .object checks shape => (∀ c ∈ checks, c.Blind) ∧ BlindIn shape

def BlindIn : List (String × Rule) → Prop
  | [] => True
  | (_, r) :: shape => r.Blind ∧ BlindIn shape

end

namespace Row

/-- What stands for an absent field is accepted like a value that is given: the innermost default,
or null where the field may be left out. No function is called for it. -/
theorem keeps_source {name : String} {r : Rule} (hr : r.Stable name) {s : Schema}
    (hs : schema? name r = some s) :
    (∀ v, r.source? = some (.value v) → Keeps s v) ∧ (∀ f, r.source? ≠ some (.factory f)) ∧
      (r.source? = none → mayBeAbsent r = true → Keeps s .null) := by
  induction r using Rule.layerInduction generalizing s with
  | layer checks l r ih =>
    obtain ⟨rfl, hl, hr⟩ := hr
    rw [Rule.source?_layer]
    cases l with
    | optional | nullable =>
      rw [schema?] at hs
      obtain ⟨t, ht, rfl⟩ := Option.map_eq_some_iff.mp hs
      obtain ⟨hvalue, hfactory, -⟩ := ih hr ht
      have hsource (l : Layer) (hl : l.source? = none) : r.source?.or l.source? = r.source? := by
        rw [hl, Option.or_none]
      rw [hsource _ rfl]
      exact ⟨fun v hv => keeps_orNull (hvalue v hv), hfactory, fun _ _ => keeps_null t⟩
    | default v f =>
      rw [schema?] at hs
      obtain ⟨t, ht, rfl⟩ := Option.map_eq_some_iff.mp hs
      obtain ⟨hvalue, hfactory, -⟩ := ih hr ht
      cases f with
      | some f => exact hl.elim
      | none =>
        -- The default of this layer counts when there is none below it.
        cases hsource : r.source? with
        | some source =>
          rw [hsource] at hvalue hfactory
          exact ⟨hvalue, hfactory, by rintro ⟨⟩⟩
        | none =>
          refine ⟨?_, by rintro g ⟨⟩, by rintro ⟨⟩⟩
          rintro w ⟨⟩
          exact hl t ht
  | scalar checks x =>
    refine ⟨by rintro v ⟨⟩, by rintro f ⟨⟩, fun _ ha => ?_⟩
    cases x with
    | undefined =>
      obtain rfl := hr rfl
      cases hs
      exact keeps_null .null
    | _ => cases ha
  | union | array | object => exact ⟨by rintro v ⟨⟩, by rintro f ⟨⟩, by rintro - ⟨⟩⟩

theorem fixedField_of_keeps {name : String} {r : Rule} (hr : r.Stable name) {s : Schema}
    (hs : schema? name r = some s) (hf : Again s) (n : FieldName) :
    FixedField (⟨n, absence r⟩, s) := by
  obtain ⟨hvalue, hfactory, hnull⟩ := keeps_source hr hs
  refine ⟨hf, fun v hv => ?_, fun g hg => ?_⟩
  · dsimp only at hv
    rw [absence_eq] at hv
    split at hv
    · cases hv
    · rename_i hsource
      cases hv
      exact hvalue _ hsource
    · rename_i hsource
      split at hv
      · rename_i ha
        cases hv
        exact hnull hsource ha
      · cases hv
  · dsimp only at hg
    rw [absence_eq] at hg
    split at hg
    · rename_i hsource
      cases hg
      exact hfactory _ hsource
    · cases hg
    · split at hg <;> cases hg

theorem flat_or {flat : Bool} {P : Prop} (h : flat = true → P) : (!flat) = true ∨ P := by
  cases flat with
  | true => exact .inr (h rfl)
  | false => exact .inl rfl

mutual

theorem fixed_schema? : ∀ (name : String) (r : Rule) {s : Schema}, r.Stable name → r.Blind →
    schema? name r = some s → Fixed (!r.holdsObjects) s
  | name, .layer checks l r, s, hr, hb, h => by
    obtain ⟨rfl, -, hr⟩ := hr
    rw [schema?_layer] at h
    obtain ⟨t, ht, rfl⟩ := Option.map_eq_some_iff.mp h
    have hfixed := fixed_schema? name r hr hb ht
    rw [Schema.refinedBy, List.foldl_nil]
    split
    · exact fixed_orNull hfixed
    · exact hfixed
  | name, .scalar checks scalar, s, _, _, h => by
    rw [schema?] at h
    obtain ⟨t, ht, rfl⟩ := Option.map_eq_some_iff.mp h
    exact fixed_refinedBy (fixed_leaf (isLeaf_scalarSchema? ht)) (.inl rfl)
  | name, .union checks rs, s, hr, _, _ => hr.elim
  | name, .array checks r, s, hr, hb, h => by
    rw [schema?] at h
    obtain ⟨t, ht, rfl⟩ := Option.map_eq_some_iff.mp h
    have hitem := fixed_schema? (name ++ "Item") r hr hb.2 ht
    exact fixed_refinedBy (fixed_list hitem) (flat_or hb.1)
  | name, .object checks shape, s, hr, hb, h => by
    rw [schema?] at h
    obtain ⟨fs, hfs, rfl⟩ := Option.map_eq_some_iff.mp h
    have hn : (fs.map (·.1.name.column)).Nodup := (columns_of_fields? hfs).symm ▸ hr.1
    have hobject := fixed_object name (fixed_fields? name shape _ hr.2 hb.2 hfs) hn
    exact fixed_refinedBy hobject (.inr hb.1)

theorem fixed_fields? : ∀ (model : String) (shape : List (String × Rule))
    (names : List FieldName) {fs : List (Head × Schema)}, StableIn model shape → BlindIn shape →
    fields? model shape names = some fs → ∀ f ∈ fs, FixedField f
  | model, [], names, fs, _, _, h => by
    rw [fields?] at h
    · cases h
      rintro f ⟨⟩
    · rintro c r cs n ns ⟨⟩
  | model, (column, r) :: rest, names, fs, hr, hb, h => by
    cases names with
    | nil =>
      rw [fields?] at h
      · cases h
        rintro f ⟨⟩
      · rintro c s cs n ns - ⟨⟩
    | cons n ns =>
      rw [fields?] at h
      split at h
      · rename_i s gs hs hgs
        cases h
        have hf := fixed_schema? (model ++ pascal column) r hr.1 hb.1 hs
        exact List.forall_mem_cons.mpr
          ⟨fixedField_of_keeps hr.1 hs hf.again n, fixed_fields? model rest ns hr.2 hb.2 hgs⟩
      · cases h

end

end Row

namespace Table

open Log (Context Record)

/-- The rules of the columns are without unions and default functions, and refined at most at their
leaves. -/
def Stable (suffix : String) (t : Table) : Prop :=
  StableIn (Model.nameOf t.name suffix) (t.columns.map fun c => (c.name, c.rule))

/-- No refinement of a column tells objects apart that are written out alike. -/
def Blind (t : Table) : Prop := BlindIn (t.columns.map fun c => (c.name, c.rule))

def servesMeal : Value → Except Fault Bool
  | .dict es => .ok (Value.field? es "meal").isSome
  | _ => .error .mistyped

/-- Bookings: names that are no identifiers, an array behind a layer, a refined object with a
default in it, and a column of any values that may be left out. -/
def bookings : Table where
  name := "bookings"
  columns := [⟨"class", .scalar [⟨Callable.even 0, "must be even"⟩] .bigint, false, none⟩,
    ⟨"paid", .scalar [] .boolean, false, none⟩,
    ⟨"guests", .layer [] .nullable (.array [] (.scalar [] (.string (.plain none)))), false, none⟩,
    ⟨"stay", .object [⟨.ofTest 1 fun v => servesMeal (dumped v), "no meal"⟩]
      [("from", .scalar [] (.string (.plain (some .date)))),
        ("meal", .layer [] (.default (.text "none") none)
          (.scalar [] (.enum ["none", "breakfast"])))], false, none⟩,
    ⟨"hint", .layer [] .optional (.scalar [] .any), false, none⟩]
  primaryKeys := []
  indexes := []
  description := none

def booking : Value :=
  .dict [(.text "class", .text " 8.0 "), (.text "paid", .text "Yes"),
    (.text "guests", .tuple [.bytes [65], .text "B"]),
    (.text "stay", .dict [(.text "column_0", .datetime ⟨⟨2024, 2, 29⟩, .midnight⟩)])]

theorem suits_meal (name : String) : Layer.Suits name (.scalar [] (.enum ["none", "breakfast"]))
    (.default (.text "none") none) := by
  intro s hs calls
  cases hs
  refine ⟨.text "none", .exact, calls, ?_, rfl⟩
  rw [judge_leaf rfl]
  rfl

theorem stable_bookings : bookings.Stable "Row" := by
  refine ⟨?_, ?_, ⟨rfl, trivial, ?_⟩, ⟨by decide, ?_, ⟨rfl, suits_meal _, ?_⟩, trivial⟩,
    ⟨rfl, trivial, ?_⟩, trivial⟩ <;> rintro ⟨⟩

theorem blind_bookings : bookings.Blind := by
  have hserved : Refinement.Blind ⟨.ofTest 1 fun v => servesMeal (dumped v), "no meal"⟩ :=
    fun v w hvw hv => (congrArg servesMeal hvw).symm.trans hv
  refine ⟨trivial, trivial, ⟨by rintro ⟨⟩, trivial⟩, ⟨?_, trivial, trivial, trivial⟩, trivial,
    trivial⟩
  intro c hc
  cases List.mem_singleton.mp hc
  exact hserved

def refusesAgain (m : Model) (row : Value) (calls : Calls) : Bool :=
  match m.validate row calls with
  | (.ok (.ok out), after) => match m.validate (.dict (toEntries out)) after with
    | (.ok (.error _), _) => true
    | _ => false
  | _ => false

theorem exists_of_refusesAgain {m : Model} {row : Value} {calls : Calls}
    (h : refusesAgain m row calls = true) :
    ∃ out after es last, m.validate row calls = (.ok (.ok out), after) ∧
      m.validate (.dict (toEntries out)) after = (.ok (.error es), last) := by
  unfold refusesAgain at h
  split at h
  · rename_i out after hout
    split at h
    · rename_i es last hes
      exact ⟨out, after, es, last, hout, hes⟩
    · cases h
  · cases h

def trips : Table where
  name := "trips"
  columns := [⟨"stay", .object
    [⟨.ofTest 0 fun
      | .record _ given => .ok given.isEmpty
      | _ => .error .mistyped, "no extras"⟩]
    [("meal", .layer [] (.default (.text "none") none)
      (.scalar [] (.enum ["none", "breakfast"])))], false, none⟩]
  primaryKeys := []
  indexes := []
  description := none

def trip : Value := .dict [(.text "stay", .dict [])]

def twice : List (String × Rule) :=
  [("_x", .scalar [] (.string (.plain none))), ("_x", .scalar [] (.string (.plain (some .date))))]

end Table

end Tablewright
