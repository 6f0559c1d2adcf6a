import Tablewright.Proofs.Row.Listed
import Tablewright.Proofs.Row.Options

namespace Tablewright

def Scalar.takesNull : Scalar → Bool
  | .null | .undefined | .any => true
  | .literal values => decide (.null ∈ values)
  | _ => false

namespace Rule

mutual

/-- Whether null is among the values of a rule, whatever its refinements say. A union has null when
one of its options does, and, as far as rules go, when it has no options. -/
def takesNull : Rule → Bool
  | .layer _ .optional _ | .layer _ .nullable _ => true
  | .layer _ (.default ..) r => r.takesNull
  | .scalar _ s => s.takesNull
  | .union _ rs => rs.isEmpty || anyTakesNull rs
  | .array .. | .object .. => false

def anyTakesNull : List Rule → Bool
  | [] => false
  | r :: rs => r.takesNull || anyTakesNull rs

end

theorem takesNull_leaf {r : Rule} (h : r.layers.any admitsNull = false) :
    r.leaf.takesNull = r.takesNull := by
  induction r using layerInduction with
  | layer checks l r ih =>
    rw [layers, List.any_cons, Bool.or_eq_false_iff] at h
    cases l with
    | optional | nullable => cases h.1
    | default => exact ih h.2
  | _ => rfl

end Rule

namespace Row

mutual

def Schema.takesNull : Schema → Bool
  | .null | .any | .nullable _ => true
  | .listed values => decide (.null ∈ values)
  | .union ss => anyTakesNull ss
  | .refined s _ => s.takesNull
  | _ => false

def anyTakesNull : List Schema → Bool
  | [] => false
  | s :: ss => s.takesNull || anyTakesNull ss

end

theorem anyTakesNull_eq (ss : List Schema) : anyTakesNull ss = ss.any Schema.takesNull := by
  induction ss with
  | nil => rfl
  | cons s ss ih => rw [anyTakesNull, ih, List.any_cons]

theorem takesNull_orNull (s : Schema) : s.orNull.takesNull = true := by
  cases s <;> rfl

theorem takesNull_refinedBy (s : Schema) (checks : List Refinement) :
    (s.refinedBy checks).takesNull = s.takesNull := by
  rw [Schema.refinedBy]
  induction checks generalizing s with
  | nil => rfl
  | cons c cs ih => rw [List.foldl_cons, ih, Schema.takesNull]

theorem takesNull_iff_spread {s : Schema} : s.takesNull = true ↔
    s.spread.2 = true ∨ ∃ o ∈ s.spread.1, o.takesNull = true := by
  have hself {s : Schema} : s.takesNull = true ↔
      false = true ∨ ∃ o ∈ [s], o.takesNull = true := by simp
  cases s with
  | null => exact iff_of_true rfl (.inl rfl)
  | nullable s => cases s <;> exact iff_of_true rfl (.inl rfl)
  | union ss => simp [Schema.takesNull, Schema.spread, anyTakesNull_eq]
  | _ => exact hself

theorem eq_null_of_sameLiteral {l : Literal} (h : Schema.sameLiteral .null l = true) :
    l = .null := by
  cases l <;> simp_all [Schema.sameLiteral]

theorem takesNull_of_same {s t : Schema} (hs : s.isPlain = true) (h : t.same s = true)
    (hn : s.takesNull = true) : t.takesNull = true := by
  cases s with
  | null | nullable | union => cases hs
  | listed ws =>
    cases t with
    | listed vs =>
      rw [Schema.same, Schema.sameElements, Bool.and_eq_true] at h
      obtain ⟨l, hl, hsame⟩ := List.any_eq_true.mp
        (List.all_eq_true.mp h.2 .null (of_decide_eq_true hn))
      cases eq_null_of_sameLiteral hsame
      exact decide_eq_true hl
    | _ => cases h
  | any =>
    cases t with
    | any => rfl
    | _ => cases h
  | refined => cases t <;> cases h
  | _ => cases hn

theorem exists_takesNull_iff {ss : List Schema} (h : ∀ s ∈ ss, Spreads s) :
    (∃ s ∈ ss, s.takesNull = true) ↔ (∃ s ∈ ss, s.spread.2 = true) ∨
      ∃ o ∈ Schema.distinct [] (ss.flatMap (·.spread.1)), o.takesNull = true := by
  constructor
  · rintro ⟨s, hs, hn⟩
    obtain hsnd | ⟨o, ho, hn⟩ := takesNull_iff_spread.mp hn
    · exact .inl ⟨s, hs, hsnd⟩
    · have hmem : o ∈ ss.flatMap (·.spread.1) := List.mem_flatMap.mpr ⟨s, hs, ho⟩
      obtain ⟨t, ht, -⟩ | ⟨t, ht, hto⟩ := exists_of_mem_distinct [] hmem
      · cases ht
      · refine .inr ⟨t, ht, ?_⟩
        obtain rfl | hsame := hto
        · exact hn
        · exact takesNull_of_same ((h s hs).plain o ho) hsame hn
  · rintro (⟨s, hs, hsnd⟩ | ⟨o, ho, hn⟩)
    · exact ⟨s, hs, takesNull_iff_spread.mpr (.inl hsnd)⟩
    · obtain ⟨s, hs, hmem⟩ := List.mem_flatMap.mp (mem_of_mem_distinct ho)
      exact ⟨s, hs, takesNull_iff_spread.mpr (.inr ⟨o, hmem, hn⟩)⟩

theorem takesNull_oneOf {ss : List Schema} (h : ∀ s ∈ ss, Spreads s) :
    (Schema.oneOf ss).takesNull = true ↔ ss = [] ∨ ∃ s ∈ ss, s.takesNull = true := by
  rw [exists_takesNull_iff h, Schema.oneOf]
  by_cases hnull : ss.any (·.spread.2) = true
  · rw [if_pos hnull]
    exact iff_of_true (takesNull_orNull _) (.inr (.inl (List.any_eq_true.mp hnull)))
  have hnone : ¬∃ s ∈ ss, s.spread.2 = true := fun hs => hnull (List.any_eq_true.mpr hs)
  rw [if_neg hnull, or_iff_right hnone]
  cases hd : Schema.distinct [] (ss.flatMap (·.spread.1)) with
  | nil => exact iff_of_true rfl (.inl (eq_nil_of_distinct h hd hnone))
  | cons o rest =>
    have hne : ss ≠ [] := by
      rintro rfl
      cases hd
    rw [or_iff_right hne]
    cases rest with
    | nil => simp
    | cons p rest => simp [Schema.takesNull, anyTakesNull_eq]

theorem null_mem_distinctLiterals {values : List Literal} :
    .null ∈ distinctLiterals [] values ↔ .null ∈ values := by
  refine ⟨mem_of_mem_distinctLiterals, fun h => ?_⟩
  obtain hn | hd := mem_distinctLiterals (fun _ hs => eq_null_of_sameLiteral hs) [] h
  · cases hn
  · exact hd

theorem takesNull_scalarSchema? {s : Scalar} {t : Schema} (h : scalarSchema? s = some t) :
    t.takesNull = true ↔ s.takesNull = true := by
  cases s with
  | literal values =>
    obtain ⟨-, rfl⟩ := listedSchema?_eq_some.mp h
    simp only [Schema.takesNull, Scalar.takesNull, decide_eq_true_eq, null_mem_distinctLiterals]
  | enum values =>
    obtain ⟨-, rfl⟩ := listedSchema?_eq_some.mp h
    simp [Schema.takesNull, Scalar.takesNull, null_mem_distinctLiterals]
  | string r => obtain rfl | rfl | rfl | rfl := stringSchema?_eq_some h <;> exact Iff.rfl
  | number r =>
    rw [scalarSchema?, numberSchema?] at h
    split at h
    · obtain ⟨l, -, rfl⟩ := Option.map_eq_some_iff.mp h
      exact Iff.rfl
    · obtain ⟨l, -, rfl⟩ := Option.map_eq_some_iff.mp h
      exact Iff.rfl
  | _ =>
    cases h
    exact Iff.rfl

mutual

theorem takesNull_schema? : ∀ (name : String) (r : Rule) {s : Schema}, schema? name r = some s →
    (s.takesNull = true ↔ r.takesNull = true)
  | name, .layer cs l r, s, h => by
    cases l with
    | optional | nullable =>
      rw [schema?] at h
      obtain ⟨t, ht, rfl⟩ := Option.map_eq_some_iff.mp h
      rw [takesNull_refinedBy]
      exact iff_of_true (takesNull_orNull t) rfl
    | default =>
      rw [schema?] at h
      obtain ⟨t, ht, rfl⟩ := Option.map_eq_some_iff.mp h
      rw [takesNull_refinedBy]
      exact takesNull_schema? name r ht
  | _, .scalar cs v, s, h => by
    rw [schema?] at h
    obtain ⟨t, ht, rfl⟩ := Option.map_eq_some_iff.mp h
    rw [takesNull_refinedBy]
    exact takesNull_scalarSchema? ht
  | name, .union cs rs, s, h => by
    rw [schema?] at h
    obtain ⟨ss, hss, rfl⟩ := Option.map_eq_some_iff.mp h
    obtain ⟨hempty, hiff⟩ := takesNull_schemas? name rs hss
    rw [takesNull_refinedBy, takesNull_oneOf (spreads_schemas? name rs hss), hempty, hiff,
      Rule.takesNull, Bool.or_eq_true, List.isEmpty_iff]
  | name, .array cs r, s, h => by
    rw [schema?] at h
    obtain ⟨t, -, rfl⟩ := Option.map_eq_some_iff.mp h
    rw [takesNull_refinedBy]
    exact Iff.rfl
  | name, .object cs shape, s, h => by
    rw [schema?] at h
    obtain ⟨fs, -, rfl⟩ := Option.map_eq_some_iff.mp h
    rw [takesNull_refinedBy]
    exact Iff.rfl

theorem takesNull_schemas? : ∀ (name : String) (rs : List Rule) {ss : List Schema},
    schemas? name rs = some ss → (ss = [] ↔ rs = []) ∧
      ((∃ s ∈ ss, s.takesNull = true) ↔ Rule.anyTakesNull rs = true)
  | _, [], ss, h => by
    cases h
    simp [Rule.anyTakesNull]
  | name, r :: rs, ss, h => by
    rw [schemas?] at h
    split at h
    · rename_i s ts hs hts
      cases h
      have hiff := takesNull_schema? name r hs
      obtain ⟨-, hiffs⟩ := takesNull_schemas? name rs hts
      refine ⟨by simp, ?_⟩
      simp only [Rule.anyTakesNull, Bool.or_eq_true, ← hiff, ← hiffs, List.mem_cons,
        exists_eq_or_imp]
    · cases h

end

end Row

end Tablewright
