import Tablewright.Proofs.Rule.SoundReading
import Tablewright.Rule.Document

namespace Tablewright

namespace Read

theorem fieldOr_of_field {entries : Entries} {name : String} {absent : Read α}
    {read : Value → Read α} {v : Value} {a : α} (hfield : Value.field? entries name = some v)
    (hread : read v = .ok a) : fieldOr entries name absent read = .ok a :=
  fieldOr_eq_ok.mpr (.inr ⟨v, hfield, hread⟩)

theorem items_map {read : Value → Read α} {f : α → Value} {as : List α}
    (h : ∀ a ∈ as, read (f a) = .ok a) (start : Nat) : items read start (as.map f) = .ok as := by
  induction as generalizing start with
  | nil => rfl
  | cons a rest ih =>
    rw [List.map_cons, items, h a (by simp), ih (fun b hb => h b (by simp [hb]))]
    rfl

theorem tuple_map {read : Value → Read α} {f : α → Value} {as : List α}
    (h : ∀ a ∈ as, read (f a) = .ok a) : tuple read (.list (as.map f)) = .ok as :=
  items_map h 0

theorem orNull_orNothing {read : Value → Read α} {f : α → Value} {o : Option α}
    (hnull : ∀ a ∈ o, f a ≠ .null) (h : ∀ a ∈ o, read (f a) = .ok a) :
    orNull read (orNothing f o) = .ok o := by
  cases o with
  | none => rfl
  | some a =>
    have hread : orNull read (f a) = (read (f a)).map some := by
      unfold orNull
      split
      · exact absurd ‹_› (hnull a rfl)
      · rfl
    rw [orNothing, hread, h a rfl]
    rfl

theorem choice_text {all : List α} {text : α → String} {a : α}
    (h : all.find? (fun b => text b == text a) = some a) :
    choice all text (.text (text a)) = .ok a := by
  simp only [choice, h]

end Read

namespace Rule

open Read

variable {fs : Functions} {kind : Kind} {checks : List Refinement} {fields : Entries}

theorem field?_nodeEntries {name : String} (hrefinements : name ≠ "refinements")
    (hkind : name ≠ "kind") :
    Value.field? (nodeEntries kind checks fields) name = Value.field? fields name := by
  simp [nodeEntries, entry, Value.field?, Value.isText, Ne.symm hrefinements, Ne.symm hkind]

theorem readKind_nodeEntries : readKind (nodeEntries kind checks fields) = .ok kind := by
  have hfield : Value.field? (nodeEntries kind checks fields) "kind" = some (.text kind.text) := by
    simp [nodeEntries, entry, Value.field?, Value.isText]
  simp only [readKind, hfield, Kind.ofText?_text]

theorem readCallable_toValue {c : Callable} (h : fs.Holds c) :
    readCallable fs c.toValue = .ok c := by
  rw [Callable.toValue, readCallable, h]

theorem readRefinement_toValue {r : Refinement} (h : fs.Holds r.condition) :
    readRefinement fs r.toValue = .ok r := by
  simp [readRefinement, Refinement.toValue, entry, fieldOr, Value.field?, Value.isText, both,
    under, readCallable_toValue h, text, ofCoerced, Coercion.toText]

theorem readChecks_nodeEntries (held : Held fs checks) :
    readChecks fs (nodeEntries kind checks fields) = .ok checks := by
  refine fieldOr_of_field (v := .list (checks.map (·.toValue))) ?_ ?_
  · simp [nodeEntries, entry, Value.field?, Value.isText]
  · exact tuple_map fun r hr => readRefinement_toValue (held r hr)

theorem unknown_nodeEntries (h : ∀ e ∈ fields, ∃ name ∈ fieldNames kind, e.1 = .text name) :
    (nodeEntries kind checks fields).unknown ("refinements" :: "kind" :: fieldNames kind) =
      [] := by
  rw [Entries.unknown, List.filterMap_eq_nil_iff]
  intro e he
  obtain ⟨k, v⟩ := e
  simp only [nodeEntries, entry, List.mem_cons, Prod.mk.injEq] at he
  rcases he with ⟨rfl, -⟩ | ⟨rfl, -⟩ | he
  · simp
  · simp
  · obtain ⟨name, hname, rfl⟩ := h _ he
    simp [hname]

theorem finish_nodeEntries {r : Read α} {a : α} (hr : r = .ok a)
    (h : ∀ e ∈ fields, ∃ name ∈ fieldNames kind, e.1 = .text name) :
    finish kind (nodeEntries kind checks fields) r = .ok a :=
  finish_eq_ok.mpr ⟨hr, unknown_nodeEntries h⟩

theorem finish_both (held : Held fs checks) {f : List Refinement → α → β} {part : Read α} {a : α}
    (hpart : part = .ok a) (h : ∀ e ∈ fields, ∃ name ∈ fieldNames kind, e.1 = .text name) :
    finish kind (nodeEntries kind checks fields)
        (both f (readChecks fs (nodeEntries kind checks fields)) part) = .ok (f checks a) :=
  finish_nodeEntries (both_eq_ok.mpr ⟨checks, a, readChecks_nodeEntries held, hpart, rfl⟩) h

theorem readField_nodeEntries {name : String} {v : Value} {r : Rule}
    (hfield : Value.field? (nodeEntries kind checks fields) name = some v)
    (hread : read fs v = .ok r) : readField fs (nodeEntries kind checks fields) name = .ok r := by
  obtain ⟨hv, hbelow⟩ := Entries.exists_below? hfield
  rw [readField, hbelow, under_eq_ok]
  exact hread

theorem read_nodeValue {r : Rule} (h : readNode fs kind (nodeEntries kind checks fields) = .ok r) :
    read fs (nodeValue kind checks fields) = .ok r := by
  rw [nodeValue, read, readKind_nodeEntries]
  exact under_eq_ok.mpr h

theorem readLength_natCast (n : Nat) : readLength (.int n) = .ok n := by
  have hn : ¬(n : Int) < 0 := by omega
  simp [readLength, Coercion.toInt, ofCoerced, hn]

theorem readBound_toValue {n : Number} (h : n.IsFinite) : readBound n.toValue = .ok n := by
  cases n with
  | int n => rfl
  | float x =>
    simp only [readBound, Number.toValue, strictNumber?]
    exact if_pos h

theorem readLiteral_toValue (l : Literal) : readLiteral l.toValue = .ok l := by
  cases l <;> rfl

theorem fieldOr_length {name : String} {o : Option Nat}
    (hfield : Value.field? (nodeEntries kind checks fields) name =
      some (orNothing (fun n : Nat => .int n) o)) :
    fieldOr (nodeEntries kind checks fields) name (.ok none) (orNull readLength) = .ok o :=
  fieldOr_of_field hfield (orNull_orNothing (fun _ _ => nofun) fun n _ => readLength_natCast n)

theorem fieldOr_bound {name : String} {o : Option Number} (h : ∀ n ∈ o, n.IsFinite)
    (hfield : Value.field? (nodeEntries kind checks fields) name =
      some (orNothing Number.toValue o)) :
    fieldOr (nodeEntries kind checks fields) name (.ok none) (orNull readBound) = .ok o := by
  refine fieldOr_of_field hfield (orNull_orNothing (fun n _ => ?_) fun n hn => ?_)
  · cases n <;> nofun
  · exact readBound_toValue (h n hn)

theorem string_fields (r : StringRule) :
    (fieldOr (nodeEntries kind checks (scalarEntries (.string r))) "format" (.ok none)
        (orNull (choice StringFormat.all StringFormat.text)) = .ok r.format) ∧
      (fieldOr (nodeEntries kind checks (scalarEntries (.string r))) "min_length" (.ok none)
        (orNull readLength) = .ok r.minLength) ∧
      (fieldOr (nodeEntries kind checks (scalarEntries (.string r))) "max_length" (.ok none)
        (orNull readLength) = .ok r.maxLength) ∧
      fieldOr (nodeEntries kind checks (scalarEntries (.string r))) "exact_length" (.ok none)
        (orNull readLength) = .ok r.exactLength := by
  have hfield (name : String) (hr : name ≠ "refinements") (hk : name ≠ "kind") :=
    @field?_nodeEntries kind checks (scalarEntries (.string r)) name hr hk
  refine ⟨fieldOr_of_field (hfield "format" (by decide) (by decide)) ?_,
    fieldOr_length (hfield "min_length" (by decide) (by decide)),
    fieldOr_length (hfield "max_length" (by decide) (by decide)),
    fieldOr_length (hfield "exact_length" (by decide) (by decide))⟩
  exact orNull_orNothing (fun _ _ => nofun) fun f _ => choice_text (StringFormat.ofText?_text f)

theorem number_fields {r : NumberRule} (h : ∀ bound ∈ r.bounds, ∀ n ∈ bound, n.IsFinite) :
    (fieldOr (nodeEntries kind checks (scalarEntries (.number r))) "format" (.ok .number)
        (choice NumberFormat.all NumberFormat.text) = .ok r.format) ∧
      (fieldOr (nodeEntries kind checks (scalarEntries (.number r))) "minimum" (.ok none)
        (orNull readBound) = .ok r.minimum) ∧
      (fieldOr (nodeEntries kind checks (scalarEntries (.number r))) "maximum" (.ok none)
        (orNull readBound) = .ok r.maximum) ∧
      (fieldOr (nodeEntries kind checks (scalarEntries (.number r))) "exclusive_minimum" (.ok none)
        (orNull readBound) = .ok r.exclusiveMinimum) ∧
      fieldOr (nodeEntries kind checks (scalarEntries (.number r))) "exclusive_maximum" (.ok none)
        (orNull readBound) = .ok r.exclusiveMaximum := by
  have hfield (name : String) (hr : name ≠ "refinements") (hk : name ≠ "kind") :=
    @field?_nodeEntries kind checks (scalarEntries (.number r)) name hr hk
  simp only [NumberRule.bounds, List.forall_mem_cons] at h
  obtain ⟨hmin, hmax, hlower, hupper, -⟩ := h
  refine ⟨fieldOr_of_field (hfield "format" (by decide) (by decide)) ?_,
    fieldOr_bound hmin (hfield "minimum" (by decide) (by decide)),
    fieldOr_bound hmax (hfield "maximum" (by decide) (by decide)),
    fieldOr_bound hlower (hfield "exclusive_minimum" (by decide) (by decide)),
    fieldOr_bound hupper (hfield "exclusive_maximum" (by decide) (by decide))⟩
  exact choice_text (NumberFormat.ofText?_text r.format)

theorem readString_scalarEntries (r : StringRule) :
    readString (nodeEntries kind checks (scalarEntries (.string r))) = .ok r := by
  obtain ⟨hformat, hmin, hmax, hexact⟩ := @string_fields kind checks r
  simp only [readString, hformat, hmin, hmax, hexact]
  rfl

theorem readNumber_scalarEntries {r : NumberRule}
    (h : ∀ bound ∈ r.bounds, ∀ n ∈ bound, n.IsFinite) :
    readNumber (nodeEntries kind checks (scalarEntries (.number r))) = .ok r := by
  obtain ⟨hformat, hmin, hmax, hlower, hupper⟩ := @number_fields kind checks r h
  simp only [readNumber, hformat, hmin, hmax, hlower, hupper]
  rfl

theorem fieldOr_values {read : Value → Read α} {f : α → Value}
    {check : List α → Read (List α)} {values : List α} (h : ∀ a ∈ values, read (f a) = .ok a)
    (hcheck : check values = .ok values) :
    fieldOr (nodeEntries kind checks [entry "values" (.list (values.map f))]) "values"
      (fail .missing) (fun v => (tuple read v).bind check) = .ok values := by
  refine fieldOr_of_field (field?_nodeEntries (by decide) (by decide)) ?_
  exact bind_eq_ok.mpr ⟨values, tuple_map h, hcheck⟩

theorem readScalar_scalarEntries {s : Scalar} (h : SoundScalar s) :
    readScalar (nodeEntries kind checks (scalarEntries s)) s.kind = .ok s := by
  cases s with
  | string r => exact map_eq_ok.mpr ⟨r, readString_scalarEntries r, rfl⟩
  | number r => exact map_eq_ok.mpr ⟨r, readNumber_scalarEntries h, rfl⟩
  | enum values => exact map_eq_ok.mpr ⟨values, fieldOr_values (fun _ _ => rfl) h, rfl⟩
  | literal values =>
    exact map_eq_ok.mpr ⟨values, fieldOr_values (fun l _ => readLiteral_toValue l) h, rfl⟩
  | _ => rfl

theorem checkScalar_of_sound {s : Scalar} (h : SoundScalar s) : checkScalar s = .ok s := by
  cases s with
  | string r => exact map_eq_ok.mpr ⟨r, h, rfl⟩
  | _ => rfl

theorem mem_scalarEntries {s : Scalar} :
    ∀ e ∈ scalarEntries s, ∃ name ∈ fieldNames s.kind, e.1 = .text name := by
  cases s <;> simp [scalarEntries, fieldNames, Scalar.kind, entry]

theorem readNode_scalar (s : Scalar) (entries : Entries) :
    readNode fs s.kind entries =
      (finish s.kind entries
        (both Prod.mk (readChecks fs entries) (readScalar entries s.kind))).bind
          fun (cs, t) => (checkScalar t).map (Rule.scalar cs) := by
  cases s <;> exact readNode.eq_def _ _ _

theorem toValues_eq_map (rs : List Rule) : toValues rs = rs.map toValue := by
  induction rs with
  | nil => rfl
  | cons r rs ih => rw [toValues, ih, List.map_cons]

theorem readShape_toEntries {shape : List (String × Rule)}
    (h : ∀ p ∈ shape, read fs p.2.toValue = .ok p.2) :
    readShape fs (toEntries shape) = .ok shape := by
  induction shape with
  | nil =>
    rw [toEntries, readShape]
  | cons p rest ih =>
    have hp : read fs p.2.toValue = .ok p.2 := h p (by simp)
    rw [toEntries, entry, readShape, hp, ih fun q hq => h q (by simp [hq])]
    rfl

theorem readNode_union (held : Held fs checks) {options : List Rule} (hsome : options ≠ [])
    (h : ∀ r ∈ options, read fs r.toValue = .ok r) :
    readNode fs .union
        (nodeEntries .union checks [entry "options" (.list (toValues options))]) =
      .ok (.union checks options) := by
  have hread : readAll fs (toValues options) = options.map .ok := by
    rw [readAll_eq_map, toValues_eq_map, List.map_map]
    exact List.map_congr_left h
  have hoptions : checkOptions (readAll fs (toValues options))
      (sequence 0 (readAll fs (toValues options))) = .ok options := by
    rw [hread, sequence_eq_ok.mpr rfl]
    obtain ⟨r, rest, rfl⟩ := List.exists_cons_of_ne_nil hsome
    rfl
  have hfield : Value.field? (nodeEntries .union checks
      [entry "options" (.list (toValues options))]) "options" = some (.list (toValues options)) :=
    field?_nodeEntries (by decide) (by decide)
  obtain ⟨hv, hbelow⟩ := Entries.exists_below? hfield
  unfold readNode
  refine finish_both held ?_ (by simp [entry, fieldNames])
  rw [hbelow, under_eq_ok]
  exact hoptions

theorem readNode_object (held : Held fs checks) {shape : List (String × Rule)}
    (apart : (shape.map (·.1)).Nodup) (h : ∀ p ∈ shape, read fs p.2.toValue = .ok p.2) :
    readNode fs .object (nodeEntries .object checks [entry "shape" (.dict (toEntries shape))]) =
      .ok (.object checks shape) := by
  have hfield : Value.field? (nodeEntries .object checks
      [entry "shape" (.dict (toEntries shape))]) "shape" = some (.dict (toEntries shape)) :=
    field?_nodeEntries (by decide) (by decide)
  obtain ⟨hv, hbelow⟩ := Entries.exists_below? hfield
  unfold readNode
  refine finish_both held ?_ (by simp [entry, fieldNames])
  rw [hbelow, under_eq_ok]
  exact map_eq_ok.mpr ⟨shape, readShape_toEntries h, shapeOf_of_nodup apart⟩

theorem readFactory_nodeEntries {v : Value} {f : Option Callable} {r : Rule}
    (h : ∀ g ∈ f, fs.Holds g) :
    readFactory fs (nodeEntries .default checks
      [entry "inner" r.toValue, entry "value" v, entry "factory" (orNothing Callable.toValue f)]) =
      .ok f := by
  refine fieldOr_of_field (field?_nodeEntries (by decide) (by decide)) ?_
  exact orNull_orNothing (fun _ _ => nofun) fun c hc => readCallable_toValue (h c hc)

theorem read_layer (held : Held fs checks) {l : Layer}
    (supplied : ∀ v f, l = .default v (some f) → fs.Holds f) {r : Rule}
    (h : read fs r.toValue = .ok r) :
    read fs (Rule.layer checks l r).toValue = .ok (.layer checks l r) := by
  cases l with
  | optional | nullable =>
    rw [toValue]
    refine read_nodeValue ?_
    unfold readNode
    refine finish_both held ?_ (by simp [entry, fieldNames])
    exact readField_nodeEntries (field?_nodeEntries (by decide) (by decide)) h
  | default v f =>
    rw [toValue]
    refine read_nodeValue ?_
    unfold readNode
    refine finish_nodeEntries ?_ (by simp [entry, fieldNames])
    refine both_eq_ok.mpr ⟨(checks, r), f, ?_, readFactory_nodeEntries fun g hg => ?_, ?_⟩
    · refine both_eq_ok.mpr ⟨checks, r, readChecks_nodeEntries held, ?_, rfl⟩
      exact readField_nodeEntries (field?_nodeEntries (by decide) (by decide)) h
    · exact supplied v g (by rw [hg])
    · rw [field?_nodeEntries (by decide) (by decide)]
      rfl

theorem read_toValue {r : Rule} (h : r.Sound fs) : read fs r.toValue = .ok r := by
  induction h with
  | layer held supplied _ ih => exact read_layer held supplied ih
  | @scalar checks held s fields =>
    rw [toValue]
    refine read_nodeValue ?_
    rw [readNode_scalar, finish_both held (readScalar_scalarEntries fields) mem_scalarEntries]
    exact map_eq_ok.mpr ⟨s, checkScalar_of_sound fields, rfl⟩
  | union held some _ ih =>
    rw [toValue]
    exact read_nodeValue (readNode_union held some ih)
  | array held _ ih =>
    rw [toValue]
    refine read_nodeValue ?_
    unfold readNode
    refine finish_both held ?_ (by simp [entry, fieldNames])
    exact readField_nodeEntries (field?_nodeEntries (by decide) (by decide)) ih
  | object held apart _ ih =>
    rw [toValue]
    exact read_nodeValue (readNode_object held apart ih)

end Rule

end Tablewright
