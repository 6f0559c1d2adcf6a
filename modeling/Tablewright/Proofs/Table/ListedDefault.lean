import Tablewright.Proofs.Row.Listed
import Tablewright.Proofs.Sql.Comparison
import Tablewright.Proofs.Table.Default

namespace Tablewright

namespace Sql

def enumerated? : Rule → Option (List Literal)
  | .scalar _ (.enum words) => some (words.map .text)
  | leaf => Row.listed? leaf

/-- The text that a column of text stores for an operand: the contents of a literal, or a number
as it is written. Null stores none. -/
def Operand.stored? : Operand → Option (List Char)
  | .quoted s => some s
  | .bare w => if w = "NULL".toList then none else some w

def operand? (text : String) : Option Operand :=
  match tokens? text.toList with
  | some [t] => t.operand?
  | _ => none

def stored? (text : String) : Option (List Char) := (operand? text).bind Operand.stored?

theorem operand?_of_text {o : Operand} (ho : o.IsPlain) {text : String}
    (h : text.toList = o.text) : operand? text = some o := by
  have hend : Bounded [] := by rintro c ⟨⟩
  have ht := tokens?_operand ho hend
  rw [List.append_nil, tokens?_nil, Option.map_some] at ht
  rw [operand?, h, ht]
  exact operand?_token o

theorem operand?_literal (v : Value) : operand? (literal v) = some (.ofValue v) :=
  operand?_of_text (Operand.isPlain_ofValue v) (Operand.text_ofValue v).symm

theorem operand?_quoted (v : Value) : operand? (quoted v) = some (.quoted v.storedText.toList) :=
  operand?_of_text (o := .quoted _) trivial String.toList_ofList

theorem stored?_quoted (v : Value) : stored? (quoted v) = some v.storedText.toList := by
  rw [stored?, operand?_quoted]
  rfl

theorem stored?_literal (v : Value) : stored? (literal v) = (Operand.ofValue v).stored? := by
  rw [stored?, operand?_literal]
  rfl

theorem stored?_bare {w : List Char} (h : noCapital w = true) :
    (Operand.bare w).stored? = some w := by
  refine if_neg ?_
  rintro rfl
  cases h

/-- What the two ways to write a listed value store: a truth value is a word in a default and a
digit in a check, every other value is the same in both. -/
theorem stored?_listed (l : Literal) :
    stored? (literal l.toValue) = match l with
      | .null => none
      | .bool b => some (Sql.bare (.bool b)).toList
      | _ => stored? (quoted l.toValue) := by
  cases l with
  | null => rw [stored?_literal]; rfl
  | bool b => rw [stored?_literal]; cases b <;> rfl
  | text s => rw [stored?_literal, stored?_quoted]; rfl
  | int n =>
    rw [stored?_literal, stored?_quoted]
    exact stored?_bare (noCapital_numeral n)
  | float x =>
    rw [stored?_literal, stored?_quoted]
    exact stored?_bare (noCapital_binary64 x)

theorem eq_word_of_stored? {l : Literal} {b : Bool}
    (h : stored? (literal l.toValue) = some (Value.bool b).written.toList) :
    l = .text (Value.bool b).written := by
  have hcapital : noCapital (Value.bool b).written.toList = false := by cases b <;> decide
  rw [stored?_listed] at h
  cases l with
  | null => cases h
  | bool a => cases a <;> cases b <;> cases h
  | int n =>
    rw [stored?_quoted] at h
    rw [← Option.some.inj h] at hcapital
    cases (noCapital_numeral n).symm.trans hcapital
  | float x =>
    rw [stored?_quoted] at h
    rw [← Option.some.inj h] at hcapital
    cases (noCapital_binary64 x).symm.trans hcapital
  | text s =>
    rw [stored?_quoted] at h
    exact congrArg Literal.text (String.toList_injective (Option.some.inj h))

/-- A condition that a column is one of some literals, or equal to the only one. -/
def IsAmong (column : String) (literals : List String) (condition : String) : Prop :=
  condition = column ++ " IN (" ++ ", ".intercalate literals ++ ")" ∨
    ∃ o, literals = [o] ∧ condition = column ++ " = " ++ o

theorem isAmong_oneOf (column : String) (vs : List Value) :
    IsAmong column (vs.map literal) ((Condition.oneOf vs).text column) :=
  .inl rfl

theorem isAmong_valueCondition (column : String) (vs : List Value) :
    IsAmong column (vs.map literal) ((valueCondition vs).text column) := by
  unfold valueCondition
  split
  · exact .inr ⟨_, rfl, rfl⟩
  · exact isAmong_oneOf column _

theorem conditions_of_enumerated {r : Rule} {values : List Literal}
    (h : enumerated? r.leaf = some values) :
    storage r.leaf = .text ∧ ∃ k, conditions r = [k] ∧
      ∀ column, IsAmong column (values.map fun l => literal l.toValue) (k.text column) := by
  have hmap :
      (values.map fun l => literal l.toValue) = (values.map Literal.toValue).map literal := by
    rw [List.map_map]
    rfl
  rw [conditions, hmap]
  generalize r.leaf = leaf at h
  unfold enumerated? at h
  split at h
  · rename_i words
    cases h
    have hwords : (words.map Literal.text).map Literal.toValue = words.map .text := by
      rw [List.map_map]
      rfl
    rw [hwords]
    exact ⟨rfl, _, rfl, fun column => isAmong_oneOf column _⟩
  · unfold Row.listed? at h
    split at h
    · cases h
      exact ⟨rfl, _, rfl, fun column => isAmong_valueCondition column _⟩
    · split at h
      · rename_i hl
        cases h
        dsimp only
        rw [if_pos hl]
        exact ⟨rfl, _, rfl, fun column => isAmong_oneOf column _⟩
      · cases h
    · cases h

/-- What a column is defined as when its default is one of the values that it lists, and which text
the default is stored as. -/
structure ListedDefault (c : Column) (values : List Literal) (l : Literal) (default : String)
    (literals : List String) : Prop where
  defined : ∃ condition, IsAmong c.name literals condition ∧ ∀ calls, ∃ events later,
    (CanShow c (some l.toValue) → defineColumn c calls =
      (.ok (" ".intercalate (leading c ++ ["DEFAULT " ++ default]
        ++ (if c.unique then ["UNIQUE"] else []) ++ ["CHECK(" ++ condition ++ ")"]
        ++ referenceClauses c.references), events), later)) ∧
    (¬ CanShow c (some l.toValue) → defineColumn c calls = (.error .tooManyDigits, later))
  readable : ∀ o ∈ default :: literals, (operand? o).isSome = true
  stored : (∃ o ∈ literals, ∃ t, stored? default = some t ∧ stored? o = some t) ↔
    ∀ b, l = .bool b → .text (Value.bool b).written ∈ values

/-- A number or a text that is listed and the default is stored as one of the texts that the check
lists. A truth value is not: its default is a word, which the check knows only if that is listed
as well. -/
theorem listedDefault {c : Column} {values : List Literal} {l : Literal}
    (hv : enumerated? c.rule.leaf = some values) (hl : l ∈ values) (hn : l ≠ .null)
    (hd : c.rule.source? = some (.value l.toValue)) :
    ∃ default literals, ListedDefault c values l default literals := by
  obtain ⟨hs, k, hk, hamong⟩ := conditions_of_enumerated hv
  refine ⟨quoted l.toValue, values.map fun l => literal l.toValue, ?_, ?_, ?_⟩
  · have hdefaults : c.rule.DefaultsTo (some l.toValue) := by
      rw [Rule.DefaultsTo, hd]
      exact .some fun calls => rfl
    have hclause :
        defaultClause l.toValue (storage c.rule.leaf) = "DEFAULT " ++ quoted l.toValue := by
      rw [hs]
      cases l with
      | null => exact absurd rfl hn
      | bool | int | float | text => rfl
    have hcheck : check? c.name c.rule = some ("CHECK(" ++ k.text c.name ++ ")") := by
      rw [check?, hk]
      rfl
    refine ⟨k.text c.name, hamong c.name, fun calls => ?_⟩
    obtain ⟨events, later, h, herror⟩ := defineColumn_of_defaultsTo hdefaults calls
    refine ⟨events, later, fun hshow => ?_, herror⟩
    rw [h hshow, trailing, hcheck, Option.map_some, hclause]
    simp only [Option.toList_some, List.append_assoc]
  · intro o ho
    obtain rfl | ho := List.mem_cons.mp ho
    · rw [operand?_quoted]
      rfl
    · obtain ⟨m, -, rfl⟩ := List.mem_map.mp ho
      rw [operand?_literal]
      rfl
  · constructor
    · rintro ⟨o, ho, t, ht, hot⟩ b rfl
      obtain ⟨m, hm, rfl⟩ := List.mem_map.mp ho
      rw [stored?_quoted] at ht
      rw [← ht] at hot
      rwa [← eq_word_of_stored? hot]
    · intro hword
      cases l with
      | null => exact absurd rfl hn
      | bool b =>
        refine ⟨_, List.mem_map_of_mem (hword b rfl), _, stored?_quoted _, ?_⟩
        rw [stored?_listed]
        exact stored?_quoted _
      | int | float | text =>
        refine ⟨_, List.mem_map_of_mem hl, _, stored?_quoted _, ?_⟩
        rw [stored?_listed]
        exact stored?_quoted _

/-- A nullable column that lists a negative number, a text with a quote, a truth value and null. -/
def grade : Column :=
  ⟨"grade", .layer [] .nullable (.layer [] (.default (.text "it's") none)
    (.scalar [] (.literal [.int (-3), .text "it's", .bool true, .null]))), false, none⟩

theorem listedDefault_grade :
    enumerated? grade.rule.leaf = some [.int (-3), .text "it's", .bool true, .null] ∧
    grade.rule.source? = some (.value (.text "it's")) ∧
    ∃ default literals,
      ListedDefault grade [.int (-3), .text "it's", .bool true, .null] (.text "it's") default
        literals ∧
      ∃ o ∈ literals, ∃ t, stored? default = some t ∧ stored? o = some t := by
  obtain ⟨default, literals, h⟩ := listedDefault (c := grade) (l := .text "it's") rfl
    (by simp) (by simp) rfl
  exact ⟨rfl, rfl, default, literals, h, h.stored.mpr (by rintro b ⟨⟩)⟩

def flag : Column :=
  ⟨"flag", .layer [] (.default (.bool true) none) (.scalar [] (.literal [.bool true])), false,
    none⟩

/-- The default of the flag is stored as a word, and its check asks for a digit. -/
theorem flag_refused :
    (∀ calls, (defineColumn flag calls).1.toOption.map Prod.fst =
      some "flag TEXT NOT NULL DEFAULT 'True' CHECK(flag = 1)") ∧
    stored? "'True'" = some "True".toList ∧ stored? "1" = some "1".toList ∧
    "True".toList ≠ "1".toList :=
  ⟨fun _ => rfl, stored?_quoted (.bool true), stored?_literal (.bool true), by decide⟩

end Sql

end Tablewright
