import Tablewright.Proofs.Row.Judge

namespace Tablewright.Row

def Schema.isPlain : Schema → Bool
  | .null | .nullable _ | .union _ => false
  | _ => true

/-- A schema that brings plain options into a union, or else null. -/
structure Spreads (s : Schema) : Prop where
  plain : ∀ o ∈ s.spread.1, o.isPlain = true
  anything : s.spread.1 = [] → s.spread.2 = true

namespace Spreads

theorem null : Spreads .null := ⟨by simp [Schema.spread], fun _ => rfl⟩

theorem of_isPlain {s : Schema} (h : s.isPlain = true) : Spreads s := by
  have hs : s.spread = ([s], false) := by
    cases s <;> first | rfl | cases h
  constructor
  · intro o ho
    rw [hs] at ho
    exact List.mem_singleton.mp ho ▸ h
  · intro hn
    rw [hs] at hn
    cases hn

theorem orNull {s : Schema} (h : Spreads s) : Spreads s.orNull := by
  have hwrap {s : Schema} (hp : s.isPlain = true) : Spreads (.nullable s) := by
    cases s with
    | null | nullable | union => cases hp
    | _ => exact ⟨fun o ho => List.mem_singleton.mp ho ▸ hp, fun _ => rfl⟩
  cases s with
  | null | nullable => exact h
  | union ss => exact ⟨h.plain, fun _ => rfl⟩
  | _ => exact hwrap rfl

theorem refinedBy {s : Schema} (h : Spreads s) (checks : List Refinement) :
    Spreads (s.refinedBy checks) := by
  rw [Schema.refinedBy]
  induction checks generalizing s with
  | nil => exact h
  | cons c cs ih => exact ih (of_isPlain rfl)

end Spreads

theorem exists_of_mem_distinct (seen : List Schema) {ss : List Schema} {s : Schema} (h : s ∈ ss) :
    (∃ t ∈ seen, t.same s = true) ∨ ∃ t ∈ Schema.distinct seen ss, t = s ∨ t.same s = true := by
  induction ss generalizing seen with
  | nil => cases h
  | cons u ss ih =>
    rw [Schema.distinct]
    split
    · rename_i hseen
      obtain rfl | h := List.mem_cons.mp h
      · exact .inl (List.any_eq_true.mp hseen)
      · exact ih seen h
    · obtain rfl | h := List.mem_cons.mp h
      · exact .inr ⟨s, List.mem_cons_self, .inl rfl⟩
      · obtain ⟨t, ht, hs⟩ | ⟨t, ht, hs⟩ := ih (u :: seen) h
        · obtain rfl | ht := List.mem_cons.mp ht
          · exact .inr ⟨t, List.mem_cons_self, .inr hs⟩
          · exact .inl ⟨t, ht, hs⟩
        · exact .inr ⟨t, List.mem_cons_of_mem u ht, hs⟩

theorem eq_nil_of_distinct {ss : List Schema} (h : ∀ s ∈ ss, Spreads s)
    (hd : Schema.distinct [] (ss.flatMap (·.spread.1)) = [])
    (hnone : ¬∃ s ∈ ss, s.spread.2 = true) : ss = [] := by
  have hflat : ss.flatMap (·.spread.1) = [] := by
    generalize ss.flatMap (·.spread.1) = options at hd
    cases options with
    | nil => rfl
    | cons o rest => cases hd
  cases ss with
  | nil => rfl
  | cons s rest =>
    have hs := List.flatMap_eq_nil_iff.mp hflat s List.mem_cons_self
    exact absurd ⟨s, List.mem_cons_self, (h s List.mem_cons_self).anything hs⟩ hnone

/-- What is left of options is plain, so one schema for several spreads as they do. -/
theorem spreads_oneOf {ss : List Schema} (h : ∀ s ∈ ss, Spreads s) : Spreads (Schema.oneOf ss) := by
  have hplain : ∀ o ∈ Schema.distinct [] (ss.flatMap (·.spread.1)), o.isPlain = true := by
    intro o ho
    obtain ⟨s, hs, hmem⟩ := List.mem_flatMap.mp (mem_of_mem_distinct ho)
    exact (h s hs).plain o hmem
  have hif {s : Schema} (hs : Spreads s) (c : Prop) [Decidable c] :
      Spreads (if c then s.orNull else s) := by
    split
    · exact hs.orNull
    · exact hs
  rw [Schema.oneOf]
  refine hif ?_ _
  cases hd : Schema.distinct [] (ss.flatMap (·.spread.1)) with
  | nil => exact .null
  | cons o rest =>
    rw [hd] at hplain
    cases rest with
    | nil => exact .of_isPlain (hplain o List.mem_cons_self)
    | cons p rest => exact ⟨hplain, by simp [Schema.spread]⟩

theorem spreads_scalarSchema? {s : Scalar} {t : Schema} (h : scalarSchema? s = some t) :
    Spreads t := by
  cases s with
  | null | undefined =>
    cases h
    exact .null
  | string r => obtain rfl | rfl | rfl | rfl := stringSchema?_eq_some h <;> exact .of_isPlain rfl
  | enum values | literal values =>
    obtain ⟨-, rfl⟩ := listedSchema?_eq_some.mp h
    exact .of_isPlain rfl
  | number r =>
    rw [scalarSchema?, numberSchema?] at h
    split at h
    · obtain ⟨l, -, rfl⟩ := Option.map_eq_some_iff.mp h
      exact .of_isPlain rfl
    · obtain ⟨l, -, rfl⟩ := Option.map_eq_some_iff.mp h
      exact .of_isPlain rfl
  | _ =>
    cases h
    exact .of_isPlain rfl

mutual

theorem spreads_schema? : ∀ (name : String) (r : Rule) {s : Schema},
    schema? name r = some s → Spreads s
  | name, .layer cs l r, s, h => by
    cases l with
    | optional | nullable =>
      rw [schema?] at h
      obtain ⟨t, ht, rfl⟩ := Option.map_eq_some_iff.mp h
      exact (spreads_schema? name r ht).orNull.refinedBy cs
    | default =>
      rw [schema?] at h
      obtain ⟨t, ht, rfl⟩ := Option.map_eq_some_iff.mp h
      exact (spreads_schema? name r ht).refinedBy cs
  | _, .scalar cs v, s, h => by
    rw [schema?] at h
    obtain ⟨t, ht, rfl⟩ := Option.map_eq_some_iff.mp h
    exact (spreads_scalarSchema? ht).refinedBy cs
  | name, .union cs rs, s, h => by
    rw [schema?] at h
    obtain ⟨ss, hss, rfl⟩ := Option.map_eq_some_iff.mp h
    exact (spreads_oneOf (spreads_schemas? name rs hss)).refinedBy cs
  | name, .array cs r, s, h => by
    rw [schema?] at h
    obtain ⟨t, -, rfl⟩ := Option.map_eq_some_iff.mp h
    exact (Spreads.of_isPlain rfl).refinedBy cs
  | name, .object cs shape, s, h => by
    rw [schema?] at h
    obtain ⟨fs, -, rfl⟩ := Option.map_eq_some_iff.mp h
    exact (Spreads.of_isPlain rfl).refinedBy cs

theorem spreads_schemas? : ∀ (name : String) (rs : List Rule) {ss : List Schema},
    schemas? name rs = some ss → ∀ s ∈ ss, Spreads s
  | _, [], ss, h => by
    cases h
    exact fun s hs => absurd hs List.not_mem_nil
  | name, r :: rs, ss, h => by
    rw [schemas?] at h
    split at h
    · rename_i s ts hs hts
      cases h
      exact List.forall_mem_cons.mpr ⟨spreads_schema? name r hs, spreads_schemas? name rs hts⟩
    · cases h

end

end Tablewright.Row
