import Tablewright.Proofs.Sql.Body
import Tablewright.Proofs.Sql.Default
import Tablewright.Sql.Column

namespace Tablewright.Sql

def AllKept (least : Nat) (texts : List String) (literals : List (List Char)) : Prop :=
  ∃ xs : List (String × List (List Char)),
    xs.map Prod.fst = texts ∧ xs.flatMap Prod.snd = literals ∧ ∀ x ∈ xs, Kept least x.1.toList x.2

namespace AllKept

theorem nil (least : Nat) : AllKept least [] [] := ⟨[], rfl, rfl, by simp⟩

theorem single {least : Nat} {s : String} {literals : List (List Char)}
    (h : Kept least s.toList literals) : AllKept least [s] literals :=
  ⟨[(s, literals)], rfl, by simp, by simpa using h⟩

theorem append {least : Nat} {ss ts : List String} {xs ys : List (List Char)}
    (hs : AllKept least ss xs) (ht : AllKept least ts ys) :
    AllKept least (ss ++ ts) (xs ++ ys) := by
  obtain ⟨ps, rfl, rfl, hp⟩ := hs
  obtain ⟨qs, rfl, rfl, hq⟩ := ht
  refine ⟨ps ++ qs, by simp, by simp, ?_⟩
  intro x hx
  exact (List.mem_append.mp hx).elim (hp x) (hq x)

theorem map {least : Nat} {text : α → String} {literals : α → List (List Char)} {xs : List α}
    (h : ∀ x ∈ xs, Kept least (text x).toList (literals x)) :
    AllKept least (xs.map text) (xs.flatMap literals) := by
  induction xs with
  | nil => exact nil least
  | cons x xs ih =>
    have ht := ih fun y hy => h y (by simp [hy])
    exact (single (h x (by simp))).append ht

theorem intercalate {least : Nat} {texts : List String} {literals : List (List Char)}
    (h : AllKept least texts literals) {sep : String} (hs : Kept least sep.toList [])
    (hn : sep.toList ≠ []) (hq : '\'' ∉ sep.toList) :
    Kept least (sep.intercalate texts).toList literals := by
  obtain ⟨xs, rfl, rfl, hx⟩ := h
  have hi := Kept.intercalate hs hn hq (fun x : String × List (List Char) => x.1.toList)
    Prod.snd xs hx
  rw [String.toList_intercalate, List.map_map]
  exact hi

end AllKept

theorem isNeutral_of_isNumeralChar {c : Char} (h : isNumeralChar c = true) :
    isNeutral c = true := by
  simp only [isNeutral, Bool.and_eq_true, bne_iff_ne]
  refine ⟨⟨⟨?_, ?_⟩, ?_⟩, ?_⟩ <;> rintro rfl <;> exact absurd h (by decide)

theorem kept_numeral (least : Nat) {s : String} (h : IsNumeral s) : Kept least s.toList [] := by
  apply Kept.neutral
  rw [List.all_eq_true]
  intro c hc
  exact isNeutral_of_isNumeralChar (List.all_eq_true.mp h.2 c hc)

theorem kept_quoted (least : Nat) (v : Value) :
    Kept least (quoted v).toList [v.storedText.toList] := by
  rw [quoted, String.toList_ofList]
  exact Kept.literal least v.storedText.toList

def isQuoted : Value → Bool
  | .null | .bool _ | .int _ | .float _ => false
  | _ => true

def quotedTexts (values : List Value) : List (List Char) :=
  (values.filter isQuoted).map fun v => v.storedText.toList

theorem kept_literal (least : Nat) (v : Value) :
    Kept least (literal v).toList (quotedTexts [v]) := by
  cases v with
  | null => exact Kept.neutral rfl
  | bool b => cases b <;> exact Kept.neutral rfl
  | int n => exact kept_numeral least (IsNumeral.numeral n)
  | float x => exact kept_numeral least (IsNumeral.binary64 x)
  | _ => exact kept_quoted least _

namespace Condition

def values : Condition → List Value
  | .oneOf vs => vs
  | .equals v => [v]
  | _ => []

end Condition

theorem quotedTexts_eq_flatMap (vs : List Value) :
    quotedTexts vs = vs.flatMap fun v => quotedTexts [v] := by
  induction vs with
  | nil => rfl
  | cons v vs ih =>
    rw [List.flatMap_cons, ← ih, quotedTexts, quotedTexts, quotedTexts, ← List.map_append,
      ← List.filter_append]
    rfl

theorem kept_bound (least : Nat) (b : Number) : Kept least (bound b).toList [] := by
  cases b with
  | int n => exact kept_numeral least (IsNumeral.numeral n)
  | float x => exact kept_numeral least (IsNumeral.binary64 x)

theorem all_isNeutral_repr (n : Nat) : (Nat.repr n).toList.all isNeutral = true := by
  rw [List.all_eq_true]
  intro c hc
  exact isNeutral_of_isNumeralChar (List.all_eq_true.mp (IsNumeral.repr n).2 c hc)

theorem kept_length (least : Nat) {column : List Char} (h : column.all isNeutral = true)
    {op : List Char} (ho : op.all isNeutral = true) (n : Nat) :
    Kept least ("length".toList ++ ('(' :: column ++ [')']) ++ (op ++ (Nat.repr n).toList)) [] := by
  refine Kept.call rfl (Kept.neutral h) ?_
  rw [List.all_append, ho, all_isNeutral_repr]
  rfl

theorem kept_list (least : Nat) (values : List Value) :
    Kept (least + 1) (", ".intercalate (values.map literal)).toList (quotedTexts values) := by
  rw [quotedTexts_eq_flatMap]
  have hs : Kept (least + 1) ", ".toList [] :=
    (Kept.comma least).append (Kept.neutral rfl) (apart_of_notMem (by decide) _)
  exact (AllKept.map fun v _ => kept_literal (least + 1) v).intercalate hs (by decide) (by decide)

@[simp]
theorem quotedTexts_nil : quotedTexts [] = [] := rfl

theorem kept_condition (least : Nat) {column : String} (h : column.toList.all isNeutral = true)
    (k : Condition) : Kept least (k.text column).toList (quotedTexts k.values) := by
  have hop {op : List Char} (ho : op.all isNeutral = true) :
      (column.toList ++ op).all isNeutral = true := by
    rw [List.all_append, h, ho]
    rfl
  have hin : " IN ".toList.all isNeutral = true := rfl
  have heq : " = ".toList.all isNeutral = true := rfl
  have hge : " >= ".toList.all isNeutral = true := rfl
  have hle : " <= ".toList.all isNeutral = true := rfl
  have hnil : ([] : List Char).all isNeutral = true := rfl
  cases k with
  | oneOf values =>
    have hc := Kept.call (hop hin) (kept_list least values) hnil
    simpa [Condition.text, Condition.values] using hc
  | equals v =>
    have hc := Kept.neutral_append (hop heq) (kept_literal least v)
    simpa [Condition.text, Condition.values] using hc
  | atLeast b =>
    have hc := Kept.neutral_append (hop hge) (kept_bound least b)
    simpa [Condition.text, Condition.values] using hc
  | atMost b =>
    have hc := Kept.neutral_append (hop hle) (kept_bound least b)
    simpa [Condition.text, Condition.values] using hc
  | lengthAtLeast n =>
    have hc := kept_length least h hge n
    simpa [Condition.text, Condition.values] using hc
  | lengthAtMost n =>
    have hc := kept_length least h hle n
    simpa [Condition.text, Condition.values] using hc
  | lengthIs n =>
    have hc := kept_length least h heq n
    simpa [Condition.text, Condition.values] using hc

theorem kept_conditions (least : Nat) {column : String} (h : column.toList.all isNeutral = true)
    (ks : List Condition) :
    Kept least (" AND ".intercalate (ks.map (·.text column))).toList
      (ks.flatMap fun k => quotedTexts k.values) := by
  have hall := AllKept.map fun k (_ : k ∈ ks) => kept_condition least h k
  have hand : Kept least " AND ".toList [] := Kept.neutral rfl
  exact hall.intercalate hand (by decide) (by decide)

theorem allKept_check {column : String} (h : column.toList.all isNeutral = true)
    (ks : List Condition) :
    AllKept 0 (checkClause? column ks).toList (ks.flatMap fun k => quotedTexts k.values) := by
  cases ks with
  | nil => exact AllKept.nil 0
  | cons k ks =>
    have hcheck : "CHECK".toList.all isNeutral = true := rfl
    have hnil : ([] : List Char).all isNeutral = true := rfl
    have hc := Kept.call hcheck (kept_conditions 1 h (k :: ks)) hnil
    refine AllKept.single ?_
    simpa using hc

def isQuotedDefault (v : Value) (storage : Storage) : Bool :=
  match storage with
  | .null | .boolean => false
  | .text | .date | .datetime | .blob | .bigint => !v.isNull
  | .integer | .real | .float => !v.isNull && (memberNumeral? v).isNone

def defaultTexts (v : Value) (storage : Storage) : List (List Char) :=
  if isQuotedDefault v storage then [v.storedText.toList] else []

def Form.texts : Form → List (List Char)
  | .text s => [s]
  | .null | .number => []

theorem defaultTexts_eq (v : Value) (storage : Storage) :
    defaultTexts v storage = (defaultForm v storage).texts := by
  have hnumber : (memberNumeral? v).isNone = !isNumber v.content := by
    rw [← Option.not_isSome, memberNumeral?_eq, isSome_numeralOf?]
  unfold defaultTexts defaultForm
  cases hv : v.isNull <;> cases hn : isNumber v.content <;> cases storage <;>
    simp [isQuotedDefault, Storage.isNumeric, Form.texts, hnumber, hv, hn]

theorem kept_of_fits (least : Nat) {f : Form} {s : String} (h : f.Fits s.toList) :
    Kept least s.toList f.texts := by
  cases f with
  | null =>
    have hs : s.toList = "NULL".toList := h
    rw [hs]
    exact Kept.neutral rfl
  | number => exact kept_numeral least (IsSigned.isNumeral h)
  | text t =>
    rw [Form.Fits.eq_quoted h]
    exact Kept.literal least t

theorem kept_defaultLiteral (least : Nat) (v : Value) (storage : Storage) :
    Kept least (defaultLiteral v storage).toList (defaultTexts v storage) := by
  rw [defaultTexts_eq]
  exact kept_of_fits least (fits_defaultLiteral v storage)

theorem kept_default (v : Value) (storage : Storage) :
    Kept 0 (defaultClause v storage).toList (defaultTexts v storage) := by
  have hd : "DEFAULT ".toList.all isNeutral = true := rfl
  have h := Kept.neutral_append hd (kept_defaultLiteral 0 v storage)
  rwa [← String.toList_append] at h

theorem allKept_actions {word : String} (hw : word.toList.all isNeutral = true)
    (action : Option ReferentialAction) : AllKept 0 (actionText word action) [] := by
  cases action with
  | none => exact AllKept.nil 0
  | some a =>
    refine AllKept.single (Kept.neutral ?_)
    rw [String.toList_append, String.toList_append, List.all_append, List.all_append, hw]
    cases a <;> rfl

def NeutralReference (k : ForeignKey) : Prop :=
  k.table.toList.all isNeutral = true ∧ k.column.toList.all isNeutral = true

theorem allKept_references {references : Option ForeignKey}
    (h : ∀ k ∈ references, NeutralReference k) : AllKept 0 (referenceClauses references) [] := by
  cases references with
  | none => exact AllKept.nil 0
  | some k =>
    obtain ⟨ht, hc⟩ := h k rfl
    have hword : ("REFERENCES ".toList ++ k.table.toList).all isNeutral = true := by
      rw [List.all_append, ht]
      rfl
    have hnil : ([] : List Char).all isNeutral = true := rfl
    have hr : Kept 0 _ [] := Kept.call hword (Kept.neutral hc) hnil
    have hd : AllKept 0 (actionText "ON DELETE" k.onDelete) [] := allKept_actions rfl _
    have hu : AllKept 0 (actionText "ON UPDATE" k.onUpdate) [] := allKept_actions rfl _
    have hl : AllKept 0 ["REFERENCES " ++ k.table ++ "(" ++ k.column ++ ")"] [] := by
      refine AllKept.single ?_
      simpa using hr
    exact hl.append (hd.append hu)

/-- The contents of the literals in a column's definition: of its default, then of its check. -/
def columnLiterals (c : Column) (u : Unwrapped) : List (List Char) :=
  u.default.toList.flatMap (defaultTexts · (storage u.leaf))
    ++ (conditions c.rule).flatMap fun k => quotedTexts k.values

theorem kept_columnText {c : Column} (hn : c.name.toList.all isNeutral = true)
    (hr : ∀ k ∈ c.references, NeutralReference k) (u : Unwrapped) :
    Kept 0 (columnText c u).toList (columnLiterals c u) := by
  have hw : (storage u.leaf).word.toList.all isNeutral = true := by cases storage u.leaf <;> rfl
  have hhead : AllKept 0 [c.name, (storage u.leaf).word] [] :=
    (AllKept.single (Kept.neutral hn)).append (AllKept.single (Kept.neutral hw))
  have hnull : AllKept 0 (if u.nullable then [] else ["NOT NULL"]) [] := by
    split
    · exact AllKept.nil 0
    · exact AllKept.single (Kept.neutral rfl)
  have hdefault : AllKept 0 (u.default.map fun v => defaultClause v (storage u.leaf)).toList
      (u.default.toList.flatMap (defaultTexts · (storage u.leaf))) := by
    cases u.default with
    | none => exact AllKept.nil 0
    | some v =>
      have hd := AllKept.single (kept_default v (storage u.leaf))
      simpa using hd
  have hunique : AllKept 0 (if c.unique then ["UNIQUE"] else []) [] := by
    split
    · exact AllKept.single (Kept.neutral rfl)
    · exact AllKept.nil 0
  have hcheck := allKept_check hn (conditions c.rule)
  have hall := ((((hhead.append hnull).append hdefault).append hunique).append hcheck).append
    (allKept_references hr)
  have hsep : Kept 0 " ".toList [] := Kept.neutral rfl
  have h := hall.intercalate hsep (by decide) (by decide)
  simpa [columnText, clauses, columnLiterals, check?] using h

end Tablewright.Sql
