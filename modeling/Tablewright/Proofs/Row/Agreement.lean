import Tablewright.Proofs.Numeric.Number
import Tablewright.Proofs.Row.Columns
import Tablewright.Proofs.Row.Listed
import Tablewright.Proofs.Sql.Evaluation

namespace Tablewright.Row

open Sql (IsWord Cell Condition checkHolds? check?)

/-- Whether rows with a single column accept a value in it, when validating comes to an end. -/
def accepts? (name column : String) (r : Rule) (v : Value) (calls : Calls) : Option Bool :=
  match Model.ofColumns? name [(column, r)] with
  | none => none
  | some m =>
    match m.validate (.dict [(.text column, v)]) calls with
    | (.ok result, _) => some result.isOk
    | (.error _, _) => none

theorem accepts?_leaf {name column : String} {r : Rule} (h : r.everyCheck = []) {s : Schema}
    (hs : schema? (name ++ pascal column) r.leaf = some s) (hl : s.isLeaf = true) {v : Value}
    (hv : v.isNull = false) (calls : Calls) :
    accepts? name column r v calls = some (judgeLeaf s v).isOk := by
  obtain ⟨t, ht, hsome, -⟩ := schema?_layers h hs
  obtain ⟨m, hm, hrow⟩ := validate_single ht v
  rw [accepts?, hm]
  dsimp only
  rw [hrow, hsome v hv, judge_leaf hl, pure_bind, Run.pure_apply]
  cases judgeLeaf s v <;> rfl

theorem ofColumns?_of_schema?_eq_none {name column : String} {r : Rule}
    (h : schema? (name ++ pascal column) r = none) :
    Model.ofColumns? name [(column, r)] = none := by
  rw [Option.eq_none_iff_forall_ne_some]
  intro m hm
  obtain ⟨s, hs⟩ := exists_schema?_of_single hm
  cases h.symm.trans hs

theorem accepts?_of_schema?_eq_none {name column : String} {r : Rule}
    (h : schema? (name ++ pascal column) r = none) (v : Value) (calls : Calls) :
    accepts? name column r v calls = none := by
  rw [accepts?, ofColumns?_of_schema?_eq_none h]

theorem isOk_settle (wrap : α → Value) (against : α → Option Cause) (a : α) (e : Exactness) :
    (settle wrap against (.ok (a, e))).isOk = (against a).isNone := by
  rw [settle]
  cases against a <;> rfl

theorem isNone_firstFailing (checks : List (Bool × Cause)) :
    (firstFailing checks).isNone = checks.all (·.1) := by
  induction checks with
  | nil => rfl
  | cons c cs ih =>
    obtain ⟨ok, cause⟩ := c
    rw [firstFailing, List.all_cons]
    cases ok with
    | true => simpa using ih
    | false => rfl

theorem all_toList_map (o : Option α) (f : α → Bool × Cause) :
    (o.map f).toList.all (·.1) = o.all fun a => (f a).1 := by
  cases o <;> simp

theorem isNone_againstInt (l : Limits Int) (v : Int) :
    (againstInt l v).isNone = (l.most.all (v ≤ ·) && l.below.all (v < ·)
      && l.least.all (· ≤ v) && l.above.all (· < v)) := by
  simp only [againstInt, againstLimits, isNone_firstFailing, List.all_append, all_toList_map,
    Number.le_int, Number.lt_int]

theorem isNone_againstText (l : TextLimits) (s : String) :
    (againstText l s).isNone = (l.least.all (· ≤ s.length) && l.most.all (s.length ≤ ·)
      && l.pattern.all (·.accepts s.toList)) := by
  simp only [againstText, isNone_firstFailing, List.all_append, all_toList_map]

def inRange (format : NumberFormat) (v : Int) : Bool :=
  match format with
  | .int32 => -2147483648 ≤ v && v ≤ 2147483647
  | .uint32 => 0 ≤ v && v ≤ 4294967295
  | .safeint => -9007199254740991 ≤ v && v ≤ 9007199254740991
  | _ => true

theorem formatRange?_eq {format : NumberFormat} (h : format.isInteger = true) :
    ∃ a b, formatRange? format = some (.int a, .int b) ∧
      ∀ v, inRange format v = (decide (a ≤ v) && decide (v ≤ b)) := by
  cases format with
  | number | float32 | float64 => cases h
  | int32 | uint32 | safeint => exact ⟨_, _, rfl, fun v => rfl⟩

def wholeRule (format : NumberFormat) (minimum maximum above below : Option Int) : NumberRule :=
  ⟨format, minimum.map .int, maximum.map .int, above.map .int, below.map .int⟩

theorem convert?_int (least most above below : Option Int) :
    convert? wholeLimit? ⟨least.map .int, most.map .int, above.map .int, below.map .int⟩ =
      some ⟨least, most, above, below⟩ := by
  cases least <;> cases most <;> cases above <;> cases below <;> rfl

theorem numberSchema?_wholeRule {format : NumberFormat} (h : format.isInteger = true)
    (minimum maximum above below : Option Int) :
    ∃ l : Limits Int, numberSchema? (wholeRule format minimum maximum above below) = some (.int l) ∧
      ∀ v, (againstInt l v).isNone = (minimum.all (· ≤ v) && maximum.all (v ≤ ·) &&
        inRange format v && above.all (· < v) && below.all (v < ·)) := by
  obtain ⟨a, b, hrange, hin⟩ := formatRange?_eq h
  refine ⟨⟨some (minimum.elim a (max a)), some (maximum.elim b (min b)), above, below⟩, ?_, ?_⟩
  · have hl : numberLimits (wholeRule format minimum maximum above below) =
        ⟨(some (minimum.elim a (max a))).map .int, (some (maximum.elim b (min b))).map .int,
          above.map .int, below.map .int⟩ := by
      cases minimum <;> cases maximum <;>
        simp [numberLimits, wholeRule, hrange, tighter, Number.max_int, Number.min_int]
    have hi : (wholeRule format minimum maximum above below).format.isInteger = true := h
    rw [numberSchema?, if_pos hi, hl, convert?_int]
    rfl
  · intro v
    -- The bounds of the rule are merged with the range of the format; here they come apart again.
    have hleast : decide (minimum.elim a (max a) ≤ v) =
        (decide (a ≤ v) && minimum.all (· ≤ v)) := by
      cases minimum with
      | none => exact (Bool.and_true _).symm
      | some m =>
        rw [Option.elim_some, Option.all_some, ← Bool.decide_and]
        exact decide_eq_decide.mpr Int.max_le
    have hmost : decide (v ≤ maximum.elim b (min b)) =
        (decide (v ≤ b) && maximum.all (v ≤ ·)) := by
      cases maximum with
      | none => exact (Bool.and_true _).symm
      | some m =>
        rw [Option.elim_some, Option.all_some, ← Bool.decide_and]
        exact decide_eq_decide.mpr Int.le_min
    rw [isNone_againstInt, hin, Option.all_some, Option.all_some, hleast, hmost]
    ac_rfl

def boundHolds (v : Int) : Condition → Bool
  | .atLeast (.int n) => n ≤ v
  | .atMost (.int n) => v ≤ n
  | _ => false

/-- The bounds of a column of whole numbers: the check of the database and the row agree on the
inclusive ones, while the range of the format and the exclusive ones are the row's own. -/
theorem number_agrees {column name : String} {r : Rule} (hc : IsWord column.toList)
    (hr : r.everyCheck = []) {cs : List Refinement} {format : NumberFormat}
    {minimum maximum above below : Option Int} (hf : format.isInteger = true)
    (hl : r.leaf = .scalar cs (.number (wholeRule format minimum maximum above below)))
    (v : Int) (calls : Calls) :
    ∃ k, checkHolds? column.toList (.whole v) (check? column r) = some k ∧
      accepts? name column r (.int v) calls =
        some (k && inRange format v && above.all (· < v) && below.all (v < ·)) := by
  refine ⟨minimum.all (· ≤ v) && maximum.all (v ≤ ·), ?_, ?_⟩
  · have hks : Sql.conditions r = (minimum.map fun m => .atLeast (.int m)).toList
        ++ (maximum.map fun m => .atMost (.int m)).toList := by
      rw [Sql.conditions, hl]
      cases minimum <;> cases maximum <;> rfl
    have hk : ∀ k ∈ Sql.conditions r,
        (k.comparison column.toList).holds? column.toList (.whole v) = some (boundHolds v k) := by
      intro k hk
      rw [hks, List.mem_append, Option.mem_toList, Option.mem_toList] at hk
      obtain hm | hm := hk
      · obtain ⟨m, -, rfl⟩ := Option.map_eq_some_iff.mp hm
        exact Condition.holds?_atLeast m v
      · obtain ⟨m, -, rfl⟩ := Option.map_eq_some_iff.mp hm
        exact Condition.holds?_atMost m v
    rw [check?, Sql.checkHolds?_eq hc (boundHolds v) hk, hks]
    cases minimum <;> cases maximum <;> simp [boundHolds]
  · obtain ⟨l, hs, hn⟩ := numberSchema?_wholeRule hf minimum maximum above below
    have hschema : schema? (name ++ pascal column) r.leaf = some (.int l) := by
      rw [schema?_scalar hr hl, scalarSchema?, hs]
    rw [accepts?_leaf hr hschema rfl rfl, judgeLeaf, Coercion.toInt, isOk_settle, hn]

def lengthHolds (r : StringRule) (n : Nat) : Bool :=
  r.minLength.all (· ≤ n) && r.maxLength.all (n ≤ ·) && r.exactLength.all (n = ·)

theorem all_tighter_max (a b : Option Nat) (n : Nat) :
    (tighter Nat.max a b).all (· ≤ n) = (a.all (· ≤ n) && b.all (· ≤ n)) := by
  cases a with
  | none => rfl
  | some x =>
    cases b with
    | none => exact (Bool.and_true _).symm
    | some y =>
      rw [tighter, Option.all_some, Option.all_some, Option.all_some, ← Bool.decide_and]
      exact decide_eq_decide.mpr Nat.max_le

theorem all_tighter_min (a b : Option Nat) (n : Nat) :
    (tighter Nat.min a b).all (n ≤ ·) = (a.all (n ≤ ·) && b.all (n ≤ ·)) := by
  cases a with
  | none => rfl
  | some x =>
    cases b with
    | none => exact (Bool.and_true _).symm
    | some y =>
      rw [tighter, Option.all_some, Option.all_some, Option.all_some, ← Bool.decide_and]
      exact decide_eq_decide.mpr Nat.le_min

theorem isNone_againstTextLimits (r : StringRule) (v : String) :
    (againstText (textLimits r) v).isNone =
      (lengthHolds r v.length && (r.format.bind Pattern.ofFormat?).all (·.accepts v.toList)) := by
  have hexact : r.exactLength.all (v.length = ·) =
      (r.exactLength.all (· ≤ v.length) && r.exactLength.all (v.length ≤ ·)) := by
    cases r.exactLength with
    | none => rfl
    | some e =>
      rw [Option.all_some, Option.all_some, Option.all_some, ← Bool.decide_and]
      exact decide_eq_decide.mpr ⟨fun h => by omega, fun h => by omega⟩
  rw [isNone_againstText, textLimits, all_tighter_max, all_tighter_min, lengthHolds, hexact]
  ac_rfl

def lengthConditionHolds (n : Nat) : Condition → Bool
  | .lengthAtLeast m => m ≤ n
  | .lengthAtMost m => n ≤ m
  | .lengthIs m => n = m
  | _ => false

theorem stringSchema?_text {s : StringRule} (h : s.isTemporal = false) :
    stringSchema? s = textSchema? (textLimits s) := by
  obtain ⟨format, minLength, maxLength, exactLength⟩ := s
  cases format with
  | none => rfl
  | some f =>
    cases f with
    | email | url | uuid => rfl
    | date | datetime | duration => cases h

/-- The length of a text: the check of the database and the row agree on it, counted in characters,
while the pattern of a format is the row's own. -/
theorem string_agrees {column name : String} {r : Rule} (hc : IsWord column.toList)
    (hr : r.everyCheck = []) {cs : List Refinement} {s : StringRule} (hs : s.isTemporal = false)
    (hl : r.leaf = .scalar cs (.string s)) (v : String) (calls : Calls) :
    ∃ k, checkHolds? column.toList (.text v.toList) (check? column r) = some k ∧
      ((textLimits s).fit = true → accepts? name column r (.text v) calls =
        some (k && (s.format.bind Pattern.ofFormat?).all (·.accepts v.toList))) ∧
      ((textLimits s).fit = false → Model.ofColumns? name [(column, r)] = none) := by
  have hschema : schema? (name ++ pascal column) r.leaf = textSchema? (textLimits s) := by
    rw [schema?_scalar hr hl, scalarSchema?, stringSchema?_text hs]
  refine ⟨lengthHolds s v.length, ?_, fun hfit => ?_, fun hfit => ?_⟩
  · have hks : Sql.conditions r = Sql.lengthConditions s := by rw [Sql.conditions, hl]
    have hk : ∀ k ∈ Sql.conditions r,
        (k.comparison column.toList).holds? column.toList (.text v.toList) =
          some (lengthConditionHolds v.length k) := by
      intro k hk
      rw [← String.length_toList]
      simp only [hks, Sql.lengthConditions, List.mem_append, Option.mem_toList] at hk
      obtain (hm | hm) | hm := hk
      · obtain ⟨m, -, rfl⟩ := Option.map_eq_some_iff.mp hm
        exact Condition.holds?_lengthAtLeast m v.toList
      · obtain ⟨m, -, rfl⟩ := Option.map_eq_some_iff.mp hm
        exact Condition.holds?_lengthAtMost m v.toList
      · obtain ⟨m, -, rfl⟩ := Option.map_eq_some_iff.mp hm
        exact Condition.holds?_lengthIs m v.toList
    rw [check?, Sql.checkHolds?_eq hc (lengthConditionHolds v.length) hk, hks]
    cases hmin : s.minLength <;> cases hmax : s.maxLength <;> cases hex : s.exactLength <;>
      simp [Sql.lengthConditions, lengthConditionHolds, lengthHolds, hmin, hmax, hex,
        Bool.and_assoc]
  · rw [textSchema?, if_pos hfit] at hschema
    rw [accepts?_leaf hr hschema rfl rfl, judgeLeaf, Coercion.toText, isOk_settle,
      isNone_againstTextLimits]
  · rw [textSchema?, if_neg (by simp [hfit])] at hschema
    refine ofColumns?_of_schema?_eq_none (Option.eq_none_iff_forall_ne_some.mpr fun t ht => ?_)
    obtain ⟨u, hu⟩ := exists_schema?_leaf ht
    cases hschema.symm.trans hu

/-- The words of an enumeration: the check of the database and the row have the same ones. -/
theorem enum_agrees {column name : String} {r : Rule} (hc : IsWord column.toList)
    (hr : r.everyCheck = []) {cs : List Refinement} {words : List String}
    (hl : r.leaf = .scalar cs (.enum words)) (v : String) (calls : Calls) :
    ∃ k, checkHolds? column.toList (.text v.toList) (check? column r) = some k ∧
      accepts? name column r (.text v) calls = some k := by
  refine ⟨decide (v ∈ words), ?_, ?_⟩
  · have hks : Sql.conditions r = [.oneOf (words.map .text)] := by rw [Sql.conditions, hl]
    have hany : (words.any fun w => w.toList == v.toList) = decide (v ∈ words) := by
      rw [Bool.eq_iff_iff]
      simp [String.toList_inj]
    have hk : ∀ k ∈ Sql.conditions r,
        (k.comparison column.toList).holds? column.toList (.text v.toList) =
          some (decide (v ∈ words)) := by
      intro k hk
      rw [hks, List.mem_singleton] at hk
      rw [hk, Condition.holds?_oneOf, hany]
    rw [check?, Sql.checkHolds?_eq hc (fun _ => decide (v ∈ words)) hk, hks]
    simp
  · have hschema : schema? (name ++ pascal column) r.leaf =
        some (.listed (distinctLiterals [] (words.map .text))) := by
      rw [schema?_scalar hr hl, scalarSchema?, listedSchema?_texts]
    rw [accepts?_leaf hr hschema rfl rfl, judgeLeaf, isOk_judgeListed_text,
      decide_eq_decide.mpr text_mem_distinctLiterals_words]

theorem readCheck?_listed {column : String} {r : Rule} (hc : IsWord column.toList)
    {values : List Literal} (hl : listed? r.leaf = some values) :
    ∃ text op, check? column r = some text ∧ Sql.readCheck? text.toList =
      some [⟨.column column.toList, op, values.map fun l => .ofValue l.toValue⟩] := by
  have hks : ∃ k op, Sql.conditions r = [k] ∧ k.comparison column.toList =
      ⟨.column column.toList, op, values.map fun l => .ofValue l.toValue⟩ := by
    have hmap (vs : List Literal) : (vs.map Literal.toValue).map Sql.Operand.ofValue =
        vs.map fun l => .ofValue l.toValue := List.map_map
    unfold Sql.conditions
    generalize r.leaf = leaf at hl
    unfold listed? at hl
    split at hl
    · cases hl
      rcases values with _ | ⟨v, _ | ⟨w, vs⟩⟩
      · exact ⟨.oneOf [], .among, rfl, rfl⟩
      · exact ⟨.equals v.toValue, .equal, rfl, rfl⟩
      · refine ⟨.oneOf ((v :: w :: vs).map Literal.toValue), .among, rfl, ?_⟩
        rw [Condition.comparison, hmap]
    · split at hl
      · rename_i hrs
        cases hl
        refine ⟨.oneOf _, .among, if_pos hrs, ?_⟩
        rw [Condition.comparison, hmap]
      · cases hl
    · cases hl
  obtain ⟨k, op, hk, hcomparison⟩ := hks
  obtain ⟨text, ht, hread⟩ := Sql.readCheck?_checkClause hc k []
  refine ⟨text, op, by rw [check?, hk, ht], ?_⟩
  rw [hread, List.map_singleton, hcomparison]

theorem dumped_toValue (l : Literal) : dumped l.toValue = l.toValue := by
  cases l <;> rfl

/-- Listed values: whatever a row holds once it is accepted, unless it is null, is written like one
of the operands of the check. -/
theorem literal_agrees {column name : String} {r : Rule} (hc : IsWord column.toList)
    (hr : r.everyCheck = []) {values : List Literal} (hl : listed? r.leaf = some values) :
    ∃ text c, check? column r = some text ∧ Sql.readCheck? text.toList = some [c] ∧
      c.subject = .column column.toList ∧
      ((∀ l ∈ values, l.toValue.isWritable = true) →
        ∃ m, Model.ofColumns? name [(column, r)] = some m) ∧
      ∀ m, Model.ofColumns? name [(column, r)] = some m → ∀ v calls out later,
        m.validate (.dict [(.text column, v)]) calls = (.ok (.ok out), later) →
          ∀ w, (column, w) ∈ out → w.isNull = false →
            ∃ o ∈ c.operands, o.text = (Sql.literal w).toList := by
  obtain ⟨text, op, ht, hread⟩ := readCheck?_listed hc hl
  refine ⟨text, _, ht, hread, rfl, fun hw => ?_, ?_⟩
  · obtain ⟨s, hs⟩ := (@mem_of_judge_listedLeaf (name ++ pascal column) r.leaf
      (Rule.everyCheck_leaf hr) values hl).2 hw
    obtain ⟨t, ht, -⟩ := schema?_layers hr hs
    obtain ⟨m, hm, -⟩ := validate_single ht .null
    exact ⟨m, hm⟩
  intro m hm v calls out later hj w hw hn
  obtain ⟨s, hs⟩ := exists_schema?_of_single hm
  obtain ⟨m', hm', hrow⟩ := validate_single hs v
  cases hm.symm.trans hm'
  rw [hrow] at hj
  obtain ⟨result, mid, hresult, hj⟩ := Run.bind_eq_ok.mp hj
  cases result with
  | error es => cases hj
  | ok b =>
    obtain ⟨a, fit⟩ := b
    cases hj
    rw [List.mem_singleton, Prod.mk.injEq] at hw
    obtain ⟨-, rfl⟩ := hw
    dsimp only at hn ⊢
    obtain hb | ⟨l, hmem, hb⟩ := mem_of_judge_listed hr hl hs hresult
    · rw [hb] at hn
      cases hn
    · rw [hb, dumped_toValue]
      exact ⟨_, List.mem_map.mpr ⟨l, hmem, rfl⟩, Sql.Operand.text_ofValue l.toValue⟩

def level : Rule :=
  .layer [] .nullable (.layer [] (.default (.int 7) none) (.layer [] .optional
    (.scalar [] (.number (wholeRule .int32 (some (-3)) (some 4294967296) (some (-3)) none)))))

def mode : Rule :=
  .layer [] (.default .null none) (.union [] [.scalar [] (.literal [.text "it's', (", .int (-1)]),
    .scalar [] (.literal [.null, .bool true])])

end Tablewright.Row
