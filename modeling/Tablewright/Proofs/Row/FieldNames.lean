import Tablewright.Proofs.Row.Names

namespace Tablewright.Row

def underscores (n : Nat) : String := String.ofList (List.replicate n '_')

theorem append_underscores_succ (name : String) (n : Nat) :
    name ++ "_" ++ underscores n = name ++ underscores (n + 1) := by
  rw [← String.toList_inj]
  simp [underscores, List.replicate_succ]

/-- The search for a free name, step by step: a taken name is given up for the one with an
underscore more. The number counts the steps. -/
inductive Search (taken : List String) : String → Nat → String → Prop
  | free {name : String} (h : name ∉ taken) : Search taken name 0 name
  | next {name last : String} {n : Nat} (h : name ∈ taken)
      (later : Search taken (name ++ "_") n last) : Search taken name (n + 1) last

namespace Search

variable {taken : List String} {name last : String} {n : Nat}

theorem eq_append (h : Search taken name n last) : last = name ++ underscores n := by
  induction h with
  | free => simp [underscores]
  | next _ _ ih => rw [ih, append_underscores_succ]

theorem notMem (h : Search taken name n last) : last ∉ taken := by
  induction h with
  | free h => exact h
  | next _ _ ih => exact ih

theorem mem_of_lt (h : Search taken name n last) {k : Nat} (hk : k < n) :
    name ++ underscores k ∈ taken := by
  induction h generalizing k with
  | free => exact absurd hk (Nat.not_lt_zero k)
  | next h _ ih =>
    cases k with
    | zero => simpa [underscores] using h
    | succ k =>
      rw [← append_underscores_succ]
      exact ih (Nat.lt_of_succ_lt_succ hk)

theorem of_erase {short : String} (h : Search (taken.erase short) name n last)
    (hl : short.length < name.length) : Search taken name n last := by
  induction h with
  | @free name h =>
    have hne : name ≠ short := by
      rintro rfl
      exact Nat.lt_irrefl _ hl
    exact .free fun hm => h ((List.mem_erase_of_ne hne).mpr hm)
  | next h _ ih =>
    refine .next (List.mem_of_mem_erase h) (ih ?_)
    rw [String.length_append]
    omega

end Search

theorem exists_search (taken : List String) (name : String) :
    ∃ n ≤ taken.length, Search taken name n (avoid taken name) := by
  fun_induction avoid taken name with
  | case1 taken name h ih =>
    obtain ⟨n, hn, hs⟩ := ih
    have hlonger : name.length < (name ++ "_").length := by
      have hone : "_".length = 1 := rfl
      rw [String.length_append]
      omega
    refine ⟨n + 1, ?_, .next h (hs.of_erase hlonger)⟩
    have hpos := List.length_pos_of_mem h
    rw [List.length_erase_of_mem h] at hn
    omega
  | case2 taken name h => exact ⟨0, Nat.zero_le _, .free h⟩

def numberedField (position n : Nat) : String := "column_" ++ Nat.repr position ++ underscores n

def made (fields : List FieldName) : List String :=
  (fields.filter (·.key.isSome)).map (·.field)

@[simp]
theorem made_cons_own (name : String) (fields : List FieldName) :
    made (⟨name, none⟩ :: fields) = made fields := rfl

@[simp]
theorem made_cons (name column : String) (fields : List FieldName) :
    made (⟨name, some column⟩ :: fields) = name :: made fields := rfl

/-- A name that is made up for a place is the first free one for it: all with fewer underscores are
taken, by the names that were taken before or by one made up for an earlier place. -/
theorem exists_numberedField {taken columns : List String} {position i : Nat} {name : String}
    (hi : columns[i]? = some name) (hu : isUsable name = false) :
    ∃ n, (namesFrom taken position columns)[i]? = some ⟨numberedField (position + i) n, some name⟩ ∧
      numberedField (position + i) n ∉ taken ++ made ((namesFrom taken position columns).take i) ∧
      ∀ k < n, numberedField (position + i) k ∈
        taken ++ made ((namesFrom taken position columns).take i) := by
  induction columns generalizing taken position i with
  | nil => cases hi
  | cons c cs ih =>
    rw [namesFrom]
    cases i with
    | zero =>
      cases hi
      obtain ⟨n, -, hs⟩ := exists_search taken ("column_" ++ Nat.repr position)
      rw [if_neg (by simp [hu])]
      refine ⟨n, ?_, ?_, fun k hk => ?_⟩
      · simp [hs.eq_append, numberedField]
      · have hfree := hs.notMem
        rw [hs.eq_append] at hfree
        simpa [made, numberedField] using hfree
      · have htaken := hs.mem_of_lt hk
        simpa [made, numberedField] using htaken
    | succ i =>
      have hplace : position + (i + 1) = position + 1 + i := by omega
      rw [hplace]
      split
      · rw [List.take_succ_cons, made_cons_own]
        exact ih hi
      -- The name made up here is taken from now on, so it counts among those made up before.
      · obtain ⟨n, hn, hfree, htaken⟩ := ih hi
        rw [List.take_succ_cons, made_cons]
        exact ⟨n, hn, fun hm => hfree (List.perm_middle.mem_iff.mp hm),
          fun k hk => List.perm_middle.mem_iff.mpr (htaken k hk)⟩

theorem own_name {taken columns : List String} {position i : Nat} {name : String}
    (hi : columns[i]? = some name) (hu : isUsable name = true) :
    (namesFrom taken position columns)[i]? = some ⟨name, none⟩ := by
  induction columns generalizing taken position i with
  | nil => cases hi
  | cons c cs ih =>
    rw [namesFrom]
    cases i with
    | zero =>
      cases hi
      rw [if_pos hu]
      rfl
    | succ i =>
      split
      · exact ih hi
      · exact ih hi

/-- The names that the field at a place must not have: those of columns that keep their own, and
those made up for earlier places. -/
def occupied (columns : List String) (fields : List FieldName) (i : Nat) : List String :=
  columns.filter isUsable ++ made (fields.take i)

/-- Fields that stand for columns, place by place. -/
structure StandFor (fields : List FieldName) (columns : List String) : Prop where
  length : fields.length = columns.length
  own : ∀ (i : Nat) (name : String), columns[i]? = some name → isUsable name = true →
    fields[i]? = some ⟨name, none⟩
  /-- The name that is made up is that of no column, and of all that are not occupied it has the
  fewest underscores. -/
  madeUp : ∀ (i : Nat) (name : String), columns[i]? = some name → isUsable name = false →
    ∃ n, fields[i]? = some ⟨numberedField i n, some name⟩ ∧ numberedField i n ∉ columns ∧
      numberedField i n ∉ occupied columns fields i ∧
      ∀ k < n, numberedField i k ∈ occupied columns fields i
  apart : (fields.map (·.field)).Nodup

/-- Every search for a free name ends, and the fields of columns with distinct names are told apart
from each other and from the columns that they do not stand for. -/
theorem standFor_fieldNames :
    (∀ taken name, ∃ n ≤ taken.length, Search taken name n (avoid taken name)) ∧
    ∀ columns : List String, columns.Nodup → StandFor (fieldNames columns) columns := by
  refine ⟨exists_search, fun columns h => ⟨?_, fun i name hi hu => own_name hi hu, ?_,
    nodup_fieldNames h⟩⟩
  · rw [← List.length_map FieldName.column, map_column_fieldNames]
  · intro i name hi hu
    obtain ⟨n, hn, hfree, htaken⟩ :=
      @exists_numberedField (columns.filter isUsable) columns 0 i name hi hu
    rw [Nat.zero_add] at hn hfree htaken
    refine ⟨n, hn, fun hm => ?_, hfree, htaken⟩
    have hkey := key_eq_none_of_mem (List.mem_of_getElem? hn) hm
    cases hkey

/-- Columns that are named like the fields made up for others. -/
theorem standFor_fieldNames_shadowed :
    ["class", "column_0", "id", "_x", "column_3_", "column_3", "column_0_"].Nodup ∧
    fieldNames ["class", "column_0", "id", "_x", "column_3_", "column_3", "column_0_"] =
      [⟨"column_0__", some "class"⟩, ⟨"column_0", none⟩, ⟨"id", none⟩, ⟨"column_3__", some "_x"⟩,
        ⟨"column_3_", none⟩, ⟨"column_3", none⟩, ⟨"column_0_", none⟩] ∧
    StandFor
      (fieldNames ["class", "column_0", "id", "_x", "column_3_", "column_3", "column_0_"])
      ["class", "column_0", "id", "_x", "column_3_", "column_3", "column_0_"] := by
  have hn : ["class", "column_0", "id", "_x", "column_3_", "column_3", "column_0_"].Nodup := by
    decide
  exact ⟨hn, by decide +kernel, standFor_fieldNames.2 _ hn⟩

end Tablewright.Row
