import Mathlib.Data.List.Basic
import Tablewright.Reading

namespace Tablewright

namespace Value

theorem isText_iff {name : String} {v : Value} : v.isText name = true ↔ v = .text name := by
  cases v <;> simp [isText]

theorem sameKey_text_left {s : String} {k : Value} :
    (Value.text s).sameKey k = true ↔ k = .text s := by
  cases k with
  | text t =>
    simp only [sameKey, beq_iff_eq, text.injEq]
    exact eq_comm
  | _ => simp [sameKey, number?]

theorem sameKey_text_right {s : String} {k : Value} :
    k.sameKey (.text s) = true ↔ k = .text s := by
  cases k <;> simp [sameKey, number?]

theorem isText_of_sameKey {l k : Value} (h : l.sameKey k = true) (name : String) :
    l.isText name = k.isText name := by
  apply Bool.eq_iff_iff.mpr
  rw [isText_iff, isText_iff]
  constructor
  · rintro rfl
    exact sameKey_text_left.mp h
  · rintro rfl
    exact sameKey_text_right.mp h

theorem field?_cons (k v : Value) (rest : List (Value × Value)) (name : String) :
    field? ((k, v) :: rest) name = if k.isText name then some v else field? rest name := by
  by_cases h : k.isText name = true <;> simp [field?, h]

theorem field?_insertKey (k v : Value) (entries : List (Value × Value)) (name : String) :
    field? (insertKey k v entries) name =
      if k.isText name then some v else field? entries name := by
  induction entries with
  | nil => simp [insertKey, field?_cons]
  | cons entry rest ih =>
    obtain ⟨l, w⟩ := entry
    by_cases hl : l.sameKey k = true
    · simp only [insertKey, hl, if_true, field?_cons, isText_of_sameKey hl]
      split <;> rfl
    · simp only [insertKey, hl, field?_cons, ih, Bool.false_eq_true, if_false]
      split
      · -- The first entry has the name, so a key that is not the same has another.
        rename_i hname
        rw [isText_iff] at hname
        rw [hname, sameKey_text_left, ← isText_iff] at hl
        simp [hl]
      · rfl

theorem key_of_mem_insertKey {k v : Value} {entries : List (Value × Value)} {e : Value × Value}
    (h : e ∈ insertKey k v entries) : e.1 = k ∨ e.1 ∈ entries.map (·.1) := by
  induction entries with
  | nil =>
    rw [insertKey, List.mem_singleton] at h
    exact .inl (congrArg Prod.fst h)
  | cons entry rest ih =>
    rw [insertKey] at h
    split at h
    · rcases List.mem_cons.mp h with rfl | h
      · exact .inr (by simp)
      · exact .inr (List.mem_cons_of_mem _ (List.mem_map_of_mem h))
    · rcases List.mem_cons.mp h with rfl | h
      · exact .inr (by simp)
      · exact (ih h).imp_right (by simp +contextual)

end Value

namespace Entries

theorem val_below? (entries : Entries) (name : String) :
    (entries.below? name).map (·.val) = Value.field? entries name := by
  induction entries with
  | nil => rfl
  | cons entry rest ih =>
    obtain ⟨k, v⟩ := entry
    rw [Value.field?_cons, ← ih]
    by_cases hk : k.isText name = true <;> simp [below?, hk, Function.comp_def]

theorem exists_below? {entries : Entries} {name : String} {v : Value}
    (h : Value.field? entries name = some v) :
    ∃ hv, entries.below? name = some ⟨v, hv⟩ := by
  rw [← val_below?] at h
  obtain ⟨⟨w, hw⟩, hbelow, rfl⟩ := Option.map_eq_some_iff.mp h
  exact ⟨hw, hbelow⟩

theorem field?_of_below? {entries : Entries} {name : String}
    {b : { v : Value // sizeOf v < sizeOf entries }} (h : entries.below? name = some b) :
    Value.field? entries name = some b.val := by
  rw [← val_below?, h]
  rfl

end Entries

end Tablewright
