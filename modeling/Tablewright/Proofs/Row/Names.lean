import Tablewright.Row.Name

namespace Tablewright.Row

theorem avoid_eq (taken : List String) (name : String) :
    ∃ k, (avoid taken name).toList = name.toList ++ List.replicate k '_' := by
  fun_induction avoid taken name with
  | case1 taken name h ih =>
    obtain ⟨k, hk⟩ := ih
    refine ⟨k + 1, ?_⟩
    rw [hk, String.toList_append, List.append_assoc]
    rfl
  | case2 taken name h => exact ⟨0, by simp⟩

def isPlainPart (c : Char) : Bool := c.isDigit || c == '_'

theorem isIdentifierPart_of_isPlainPart {c : Char} (h : isPlainPart c = true) :
    isIdentifierPart c = true := by
  rw [isPlainPart, Bool.or_eq_true, beq_iff_eq] at h
  obtain hd | rfl := h
  · have hlt : c.toNat < 128 := by
      simp only [Char.isDigit, Bool.and_eq_true, decide_eq_true_eq] at hd
      have hle : c.toNat ≤ '9'.toNat := hd.2
      exact Nat.lt_of_le_of_lt hle (by decide)
    rw [isIdentifierPart, if_pos hlt, Char.isAlphanum, hd]
    simp
  · rfl

theorem notMem_reserved {name : String} {cs : List Char}
    (h : name.toList = "column_".toList ++ cs) : name ∉ keywords ++ modelNames := by
  have hall : ∀ k ∈ keywords ++ modelNames, k.toList.take 7 ≠ "column_".toList := by decide +kernel
  intro hm
  refine hall name hm ?_
  rw [h]
  rfl

theorem isUsable_numbered {name : String} {cs : List Char}
    (h : name.toList = "column_".toList ++ cs) (hc : cs.all isPlainPart = true) :
    isUsable name = true := by
  have hm := notMem_reserved h
  rw [List.mem_append, not_or] at hm
  have hparts : cs.all isIdentifierPart = true := by
    rw [List.all_eq_true]
    exact fun c hcs => isIdentifierPart_of_isPlainPart (List.all_eq_true.mp hc c hcs)
  have hidentifier : isIdentifier name.toList = true := by
    rw [h]
    change (isIdentifierStart 'c' && ("olumn_".toList ++ cs).all isIdentifierPart) = true
    rw [List.all_append, hparts]
    rfl
  have hstart : name.startsWith "_" = false := by
    rw [String.startsWith_string_eq_false_iff, h]
    change ¬ ['_'] <+: 'c' :: ("olumn_".toList ++ cs)
    rw [List.cons_prefix_cons]
    exact fun hp => absurd hp.1 (by decide)
  have hkeyword : keywords.contains name = false := by simpa using hm.1
  have hmodel : modelNames.contains name = false := by simpa using hm.2
  rw [isUsable, hidentifier, hkeyword, hstart, hmodel]
  rfl

theorem all_isPlainPart_numbered (position k : Nat) :
    ((Nat.repr position).toList ++ List.replicate k '_').all isPlainPart = true := by
  rw [Nat.toList_repr, List.all_append, Bool.and_eq_true, List.all_eq_true, List.all_eq_true]
  constructor
  · intro c hc
    have hd := Nat.isDigit_of_mem_toDigits (by decide) (by decide) hc
    rw [isPlainPart, hd]
    rfl
  · intro c hc
    rw [List.eq_of_mem_replicate hc]
    rfl

/-- A field has its column's name when that is usable, and else a usable name that is not taken. -/
theorem mem_namesFrom {taken columns : List String} {position : Nat} {f : FieldName}
    (h : f ∈ namesFrom taken position columns) :
    isUsable f.field = true ∧
      (f.key = none ∧ f.field ∈ columns ∨ f.key ≠ none ∧ f.field ∉ taken) := by
  induction columns generalizing taken position with
  | nil => cases h
  | cons c cs ih =>
    rw [namesFrom] at h
    split at h
    · rename_i hu
      obtain rfl | h := List.mem_cons.mp h
      · exact ⟨hu, .inl ⟨rfl, List.mem_cons_self⟩⟩
      · obtain ⟨hf, hw⟩ := ih h
        exact ⟨hf, hw.imp (fun hk => ⟨hk.1, List.mem_cons_of_mem c hk.2⟩) id⟩
    · obtain rfl | h := List.mem_cons.mp h
      · refine ⟨?_, .inr ⟨by simp, avoid_notMem taken _⟩⟩
        obtain ⟨k, hk⟩ := avoid_eq taken ("column_" ++ Nat.repr position)
        rw [String.toList_append, List.append_assoc] at hk
        exact isUsable_numbered hk (all_isPlainPart_numbered position k)
      · obtain ⟨hf, hw⟩ := ih h
        refine ⟨hf, hw.imp (fun hk => ⟨hk.1, List.mem_cons_of_mem c hk.2⟩) fun hk => ⟨hk.1, ?_⟩⟩
        exact fun hm => hk.2 (List.mem_cons_of_mem _ hm)

theorem nodup_namesFrom {taken columns : List String} (position : Nat) (hn : columns.Nodup)
    (ht : ∀ c ∈ columns, isUsable c = true → c ∈ taken) :
    ((namesFrom taken position columns).map (·.field)).Nodup := by
  induction columns generalizing taken position with
  | nil => exact List.nodup_nil
  | cons c cs ih =>
    obtain ⟨hc, hcs⟩ := List.nodup_cons.mp hn
    rw [namesFrom]
    split
    · rename_i hu
      refine List.nodup_cons.mpr ⟨?_, ih (position + 1) hcs fun d hd => ht d (by simp [hd])⟩
      intro hm
      obtain ⟨f, hf, he⟩ := List.mem_map.mp hm
      dsimp only at he
      obtain ⟨-, ⟨-, hin⟩ | ⟨-, hout⟩⟩ := mem_namesFrom hf
      · exact hc (he ▸ hin)
      · exact hout (he ▸ ht c (by simp) hu)
    -- The numbered name is taken from now on; the usable names have been from the start.
    · have htaken : ∀ d ∈ cs, isUsable d = true →
          d ∈ avoid taken ("column_" ++ Nat.repr position) :: taken :=
        fun d hd hu => List.mem_cons_of_mem _ (ht d (by simp [hd]) hu)
      refine List.nodup_cons.mpr ⟨?_, ih (position + 1) hcs htaken⟩
      intro hm
      obtain ⟨f, hf, he⟩ := List.mem_map.mp hm
      dsimp only at he
      obtain ⟨hu, ⟨-, hin⟩ | ⟨-, hout⟩⟩ := mem_namesFrom hf
      · exact avoid_notMem taken _ (he ▸ ht f.field (by simp [hin]) hu)
      · exact hout (he ▸ List.mem_cons_self)

theorem nodup_fieldNames {columns : List String} (h : columns.Nodup) :
    ((fieldNames columns).map (·.field)).Nodup :=
  nodup_namesFrom 0 h fun _ hc hu => List.mem_filter.mpr ⟨hc, hu⟩

theorem key_eq_none_of_mem {columns : List String} {f : FieldName} (h : f ∈ fieldNames columns)
    (hf : f.field ∈ columns) : f.key = none := by
  obtain ⟨hu, ⟨hk, -⟩ | ⟨-, hout⟩⟩ := mem_namesFrom h
  · exact hk
  · exact absurd (List.mem_filter.mpr ⟨hf, hu⟩) hout

end Tablewright.Row
