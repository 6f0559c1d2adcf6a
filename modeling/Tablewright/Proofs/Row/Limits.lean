import Mathlib.Data.List.ReduceOption
import Tablewright.Proofs.Row.Columns

namespace Tablewright

namespace Row

def Limits.given (l : Limits α) : List α := [l.least, l.most, l.above, l.below].reduceOption

theorem isSome_bind_iff {o : Option α} {rest : α → Option β} {p : Prop}
    (h : ∀ a, (rest a).isSome = true ↔ p) :
    (o >>= rest).isSome = true ↔ o.isSome = true ∧ p := by
  cases o <;> simp [h]

theorem isSome_converted (f : Number → Option α) (o : Option Number) :
    (match o with
      | some n => (f n).map some
      | none => some none : Option (Option α)).isSome = true ↔
      ∀ b, o = some b → (f b).isSome = true := by
  cases o <;> simp

theorem isSome_convert? (f : Number → Option α) (l : Limits Number) :
    (convert? f l).isSome = true ↔ ∀ b ∈ l.given, (f b).isSome = true := by
  refine (isSome_bind_iff fun _ => isSome_bind_iff fun _ => isSome_bind_iff fun _ =>
    isSome_bind_iff fun _ => iff_true_intro rfl).trans ?_
  rw [and_true]
  refine ((isSome_converted f _).and ((isSome_converted f _).and
    ((isSome_converted f _).and (isSome_converted f _)))).trans ?_
  simp only [Limits.given, List.reduceOption_mem_iff, List.mem_cons, List.not_mem_nil, or_false,
    or_imp, forall_and, eq_comm]

end Row

def NumberRule.limits (r : NumberRule) : List Number := (Row.numberLimits r).given

/-- A limit that is itself one of the numbers that it limits: a whole one where numbers are
whole. -/
def NumberFormat.bears (f : NumberFormat) (b : Number) : Bool :=
  if f.isInteger then (Row.wholeLimit? b).isSome else b.toFloat.isFinite

def NumberRule.Fits (r : NumberRule) : Prop := ∀ b ∈ r.limits, r.format.bears b = true

instance (r : NumberRule) : Decidable r.Fits :=
  inferInstanceAs (Decidable (∀ b ∈ r.limits, r.format.bears b = true))

def StringRule.Fits (r : StringRule) : Prop :=
  r.isTemporal = true ∨ (Row.textLimits r).fit = true

instance (r : StringRule) : Decidable r.Fits :=
  inferInstanceAs (Decidable (r.isTemporal = true ∨ (Row.textLimits r).fit = true))

def Scalar.Fits : Scalar → Prop
  | .string r => r.Fits
  | .number r => r.Fits
  | .literal values => ∀ l ∈ values, l.toValue.isWritable = true
  | _ => True

instance : DecidablePred Scalar.Fits := fun s =>
  match s with
  | .string r => inferInstanceAs (Decidable r.Fits)
  | .number r => inferInstanceAs (Decidable r.Fits)
  | .literal values => inferInstanceAs (Decidable (∀ l ∈ values, l.toValue.isWritable = true))
  | .enum _ | .boolean | .bigint | .null | .undefined | .blob | .any =>
    inferInstanceAs (Decidable True)

namespace Rule

mutual

def everyScalar : Rule → List Scalar
  | .layer _ _ r | .array _ r => r.everyScalar
  | .scalar _ s => [s]
  | .union _ rs => everyScalarOf rs
  | .object _ shape => everyScalarIn shape

def everyScalarOf : List Rule → List Scalar
  | [] => []
  | r :: rs => r.everyScalar ++ everyScalarOf rs

def everyScalarIn : List (String × Rule) → List Scalar
  | [] => []
  | (_, r) :: shape => r.everyScalar ++ everyScalarIn shape

end

end Rule

namespace Row

theorem isSome_stringSchema? (r : StringRule) : (stringSchema? r).isSome = true ↔ r.Fits := by
  have htext : (textSchema? (textLimits r)).isSome = (textLimits r).fit := by
    rw [textSchema?]
    cases (textLimits r).fit <;> rfl
  rw [StringRule.Fits, ← htext]
  obtain ⟨format, minLength, maxLength, exactLength⟩ := r
  cases format with
  | none => simp [stringSchema?, StringRule.isTemporal]
  | some f => cases f <;> simp [stringSchema?, StringRule.isTemporal, StringFormat.isTemporal]

theorem isSome_numberSchema? (r : NumberRule) : (numberSchema? r).isSome = true ↔ r.Fits := by
  rw [numberSchema?, NumberRule.Fits, NumberRule.limits]
  unfold NumberFormat.bears
  split
  · rw [Option.isSome_map, isSome_convert?]
  · have hfinite (b : Number) : (floatLimit? b).isSome = b.toFloat.isFinite := by
      rw [floatLimit?]
      split <;> simp_all
    rw [Option.isSome_map, isSome_convert?]
    simp only [hfinite]

theorem isSome_scalarSchema? (s : Scalar) : (scalarSchema? s).isSome = true ↔ s.Fits := by
  cases s with
  | string r => exact isSome_stringSchema? r
  | number r => exact isSome_numberSchema? r
  | enum values =>
    rw [scalarSchema?, listedSchema?_texts]
    exact iff_of_true rfl trivial
  | literal values =>
    rw [scalarSchema?, listedSchema?, Scalar.Fits, ← List.all_eq_true]
    split <;> simp_all
  | _ => exact iff_of_true rfl trivial

mutual

theorem isSome_schema? : ∀ (name : String) (r : Rule),
    (schema? name r).isSome = true ↔ ∀ s ∈ r.everyScalar, s.Fits
  | name, .layer _ l r => by
    rw [Rule.everyScalar, ← isSome_schema? name r]
    cases l <;> rw [schema?, Option.isSome_map]
  | name, .scalar _ s => by
    rw [schema?, Option.isSome_map, Rule.everyScalar, isSome_scalarSchema?,
      List.forall_mem_singleton]
  | name, .union _ rs => by
    rw [schema?, Option.isSome_map, Rule.everyScalar, isSome_schemas? name rs]
  | name, .array _ r => by
    rw [schema?, Option.isSome_map, Rule.everyScalar, isSome_schema? (name ++ "Item") r]
  | name, .object _ shape => by
    rw [schema?, Option.isSome_map, Rule.everyScalar,
      isSome_fields? name shape _ length_fieldNames]

theorem isSome_schemas? : ∀ (name : String) (rs : List Rule),
    (schemas? name rs).isSome = true ↔ ∀ s ∈ Rule.everyScalarOf rs, s.Fits
  | name, [] => by simp [schemas?, Rule.everyScalarOf]
  | name, r :: rs => by
    rw [schemas?, Rule.everyScalarOf, List.forall_mem_append, ← isSome_schema? name r,
      ← isSome_schemas? name rs]
    cases schema? name r <;> cases schemas? name rs <;> simp

theorem isSome_fields? : ∀ (model : String) (shape : List (String × Rule))
    (names : List FieldName), names.length = shape.length →
    ((fields? model shape names).isSome = true ↔ ∀ s ∈ Rule.everyScalarIn shape, s.Fits)
  | model, [], names, _ => by
    rw [fields?] <;> simp [Rule.everyScalarIn]
  | model, (column, r) :: rest, [], h => by cases h
  | model, (column, r) :: rest, n :: ns, h => by
    rw [fields?, Rule.everyScalarIn, List.forall_mem_append,
      ← isSome_schema? (model ++ pascal column) r,
      ← isSome_fields? model rest ns (Nat.succ.inj h)]
    cases schema? (model ++ pascal column) r <;> cases fields? model rest ns <;> simp

end

theorem isSome_ofColumns? (name : String) (columns : List (String × Rule)) :
    (Model.ofColumns? name columns).isSome = true ↔
      ∀ c ∈ columns, ∀ s ∈ c.2.everyScalar, s.Fits := by
  have hin : (∀ s ∈ Rule.everyScalarIn columns, s.Fits) ↔
      ∀ c ∈ columns, ∀ s ∈ c.2.everyScalar, s.Fits := by
    induction columns with
    | nil => simp [Rule.everyScalarIn]
    | cons c cs ih => rw [Rule.everyScalarIn, List.forall_mem_append, ih, List.forall_mem_cons]
  rw [Model.ofColumns?, Option.isSome_map, isSome_fields? name columns _ length_fieldNames, hin]

end Row

end Tablewright
