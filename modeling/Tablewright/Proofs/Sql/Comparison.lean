import Tablewright.Proofs.Sql.Token

namespace Tablewright.Sql

/-- What a condition compares: a column, or the length of its text. -/
inductive Subject
  | column (name : List Char)
  | length (name : List Char)
  deriving DecidableEq, Repr

inductive Operator
  | equal | atLeast | atMost | among
  deriving DecidableEq, Repr

structure Comparison where
  subject : Subject
  operator : Operator
  operands : List Operand
  deriving DecidableEq, Repr

def Token.operand? : Token → Option Operand
  | .word w => some (.bare w)
  | .literal s => some (.quoted s)
  | _ => none

def operands? : List Token → Option (List Operand × List Token)
  | t :: .comma :: ts =>
    match t.operand?, operands? ts with
    | some o, some (os, rest) => some (o :: os, rest)
    | _, _ => none
  | t :: .closing :: ts => t.operand?.map fun o => ([o], ts)
  | _ => none

def listed? : List Token → Option (List Operand × List Token)
  | .closing :: ts => some ([], ts)
  | ts => operands? ts

def subject? : List Token → Option (Subject × List Token)
  | .word f :: .opening :: .word c :: .closing :: ts =>
    if f = "length".toList then some (.length c, ts) else none
  | .word c :: ts => some (.column c, ts)
  | _ => none

def operator? (w : List Char) : Option Operator :=
  if w = "=".toList then some .equal
  else if w = ">=".toList then some .atLeast
  else if w = "<=".toList then some .atMost
  else none

def related? : List Token → Option (Operator × List Operand × List Token)
  | .word w :: .opening :: ts =>
    if w = "IN".toList then (listed? ts).map fun (os, rest) => (.among, os, rest) else none
  | .word w :: t :: ts =>
    match operator? w, t.operand? with
    | some op, some o => some (op, [o], ts)
    | _, _ => none
  | _ => none

def comparison? (ts : List Token) : Option (Comparison × List Token) :=
  match subject? ts with
  | none => none
  | some (s, rest) => (related? rest).map fun (op, os, rest) => (⟨s, op, os⟩, rest)

theorem length_le_of_operands? {ts rest : List Token} {os : List Operand}
    (h : operands? ts = some (os, rest)) : rest.length ≤ ts.length := by
  fun_induction operands? ts generalizing os with
  | case1 t ts o qs more hos ho ih =>
    cases h
    have := ih hos
    simp only [List.length_cons]
    omega
  | case2 => cases h
  | case3 t ts =>
    obtain ⟨o, -, he⟩ := Option.map_eq_some_iff.mp h
    cases he
    simp only [List.length_cons]
    omega
  | case4 => cases h

theorem length_le_of_listed? {ts rest : List Token} {os : List Operand}
    (h : listed? ts = some (os, rest)) : rest.length ≤ ts.length := by
  unfold listed? at h
  split at h
  · cases h
    simp
  · exact length_le_of_operands? h

theorem length_lt_of_related? {ts rest : List Token} {op : Operator} {os : List Operand}
    (h : related? ts = some (op, os, rest)) : rest.length < ts.length := by
  unfold related? at h
  split at h
  · split at h
    · obtain ⟨⟨qs, more⟩, hl, he⟩ := Option.map_eq_some_iff.mp h
      cases he
      have := length_le_of_listed? hl
      simp only [List.length_cons]
      omega
    · cases h
  · split at h
    · cases h
      simp only [List.length_cons]
      omega
    · cases h
  · cases h

theorem length_lt_of_subject? {ts rest : List Token} {s : Subject}
    (h : subject? ts = some (s, rest)) : rest.length < ts.length := by
  unfold subject? at h
  split at h
  · split at h
    · cases h
      simp only [List.length_cons]
      omega
    · cases h
  · cases h
    simp
  · cases h

theorem length_lt_of_comparison? {ts rest : List Token} {c : Comparison}
    (h : comparison? ts = some (c, rest)) : rest.length < ts.length := by
  unfold comparison? at h
  split at h
  · cases h
  · rename_i s more hs
    obtain ⟨⟨op, os, last⟩, hr, he⟩ := Option.map_eq_some_iff.mp h
    cases he
    have := length_lt_of_subject? hs
    have := length_lt_of_related? hr
    omega

def comparisons? (ts : List Token) : Option (List Comparison) :=
  match _h : comparison? ts with
  | some (c, [.closing]) => some [c]
  | some (c, .word w :: rest) =>
    if w = "AND".toList then (comparisons? rest).map (c :: ·) else none
  | _ => none
termination_by ts.length
decreasing_by
  have := length_lt_of_comparison? _h
  rw [List.length_cons] at this
  omega

def readCheck? (text : List Char) : Option (List Comparison) :=
  match tokens? text with
  | some (.word w :: .opening :: ts) => if w = "CHECK".toList then comparisons? ts else none
  | _ => none

def Subject.text : Subject → List Char
  | .column c => c
  | .length c => "length".toList ++ '(' :: c ++ [')']

def Subject.name : Subject → List Char
  | .column c | .length c => c

def Subject.tokens : Subject → List Token
  | .column c => [.word c]
  | .length c => [.word "length".toList, .opening, .word c, .closing]

def Operator.word : Operator → List Char
  | .equal => "=".toList
  | .atLeast => ">=".toList
  | .atMost => "<=".toList
  | .among => "IN".toList

def listTokens : List Operand → List Token
  | [] => [.closing]
  | [o] => [o.token, .closing]
  | o :: p :: os => o.token :: .comma :: listTokens (p :: os)

namespace Comparison

def operandText (c : Comparison) : List Char :=
  match c.operator, c.operands with
  | .among, os => '(' :: ", ".toList.intercalate (os.map Operand.text) ++ [')']
  | _, [o] => o.text
  | _, _ => []

def text (c : Comparison) : List Char :=
  c.subject.text ++ ' ' :: c.operator.word ++ ' ' :: c.operandText

def operandTokens (c : Comparison) : List Token :=
  match c.operator, c.operands with
  | .among, os => .opening :: listTokens os
  | _, [o] => [o.token]
  | _, _ => []

def tokens (c : Comparison) : List Token :=
  c.subject.tokens ++ .word c.operator.word :: c.operandTokens

/-- A comparison that can be written and read back: of words, and with one operand except in a
list. -/
structure IsPlain (c : Comparison) : Prop where
  subject : IsWord c.subject.name
  operands : ∀ o ∈ c.operands, o.IsPlain
  single : c.operator ≠ .among → ∃ o, c.operands = [o]

end Comparison

theorem Operator.isWord (op : Operator) : IsWord op.word := by
  cases op <;> exact ⟨by decide, rfl⟩

theorem tokens?_call {w c : List Char} (hw : IsWord w) (hc : IsWord c) (rest : List Char) :
    tokens? (w ++ '(' :: c ++ [')'] ++ rest) =
      (tokens? rest).map ([.word w, .opening, .word c, .closing] ++ ·) := by
  have hopen : Bounded ('(' :: (c ++ ')' :: rest)) := bounded_cons rfl _
  have hclose : Bounded (')' :: rest) := bounded_cons rfl _
  have ht := tokens?_word hw hopen
  rw [tokens?_opening, tokens?_word hc hclose, tokens?_closing, Option.map_map, Option.map_map,
    Option.map_map] at ht
  simpa [Function.comp_def] using ht

theorem Subject.tokens?_text {s : Subject} (h : IsWord s.name) {rest : List Char}
    (hr : Bounded rest) : tokens? (s.text ++ rest) = (tokens? rest).map (s.tokens ++ ·) := by
  cases s with
  | column c => exact tokens?_word h hr
  | length c => exact tokens?_call ⟨by decide, rfl⟩ h rest

theorem tokens?_list {os : List Operand} (h : ∀ o ∈ os, o.IsPlain) (rest : List Char) :
    tokens? (", ".toList.intercalate (os.map Operand.text) ++ ')' :: rest) =
      (tokens? rest).map (listTokens os ++ ·) := by
  induction os with
  | nil => exact tokens?_closing rest
  | cons o os ih =>
    have hos := ih fun p hp => h p (by simp [hp])
    have ho := h o (by simp)
    cases os with
    | nil =>
      have ht := tokens?_operand ho (bounded_cons (c := ')') rfl rest)
      rw [tokens?_closing, Option.map_map] at ht
      simpa [listTokens, Function.comp_def] using ht
    | cons p ps =>
      have ht := tokens?_operand ho (bounded_cons (c := ',') rfl
        (' ' :: (", ".toList.intercalate ((p :: ps).map Operand.text) ++ ')' :: rest)))
      rw [tokens?_comma, tokens?_blank, hos, Option.map_map, Option.map_map] at ht
      rw [List.map_cons, List.map_cons, List.intercalate_cons_cons, ← List.map_cons,
        List.append_assoc, List.append_assoc]
      exact ht

namespace Comparison

theorem tokens?_operandText {c : Comparison} (h : c.IsPlain) {rest : List Char}
    (hr : Bounded rest) :
    tokens? (c.operandText ++ rest) = (tokens? rest).map (c.operandTokens ++ ·) := by
  obtain ⟨s, op, os⟩ := c
  by_cases hop : op = .among
  · subst hop
    have hl := tokens?_list h.operands rest
    rw [operandText, operandTokens, List.append_assoc, List.cons_append, tokens?_opening,
      List.singleton_append, hl, Option.map_map]
    rfl
  · obtain ⟨o, ho⟩ := h.single hop
    dsimp only at ho
    subst ho
    have hplain := h.operands o (by simp)
    cases op with
    | among => exact absurd rfl hop
    | equal | atLeast | atMost => exact tokens?_operand hplain hr

theorem tokens?_text {c : Comparison} (h : c.IsPlain) {rest : List Char} (hr : Bounded rest) :
    tokens? (c.text ++ rest) = (tokens? rest).map (c.tokens ++ ·) := by
  have hs := Subject.tokens?_text h.subject
    (bounded_cons (c := ' ') rfl (c.operator.word ++ ' ' :: (c.operandText ++ rest)))
  have ho := tokens?_word c.operator.isWord
    (bounded_cons (c := ' ') rfl (c.operandText ++ rest))
  rw [tokens?_blank, ho, tokens?_blank, tokens?_operandText h hr, Option.map_map,
    Option.map_map] at hs
  simpa [text, tokens, Function.comp_def] using hs

end Comparison

theorem operand?_token (o : Operand) : o.token.operand? = some o := by
  cases o <;> rfl

theorem operands?_listTokens (o : Operand) (os : List Operand) (ts : List Token) :
    operands? (listTokens (o :: os) ++ ts) = some (o :: os, ts) := by
  induction os generalizing o with
  | nil =>
    rw [listTokens, List.cons_append, List.cons_append, operands?, operand?_token]
    rfl
  | cons p ps ih =>
    rw [listTokens, List.cons_append, List.cons_append, operands?, operand?_token, ih p]

theorem listed?_listTokens (os : List Operand) (ts : List Token) :
    listed? (listTokens os ++ ts) = some (os, ts) := by
  cases os with
  | nil => rfl
  | cons o os =>
    have ho := operands?_listTokens o os ts
    cases os <;> cases o <;> exact ho

namespace Comparison

theorem related?_tokens {c : Comparison} (h : c.IsPlain) (ts : List Token) :
    related? (.word c.operator.word :: c.operandTokens ++ ts) =
      some (c.operator, c.operands, ts) := by
  obtain ⟨s, op, os⟩ := c
  by_cases hop : op = .among
  · subst hop
    have hl := listed?_listTokens os ts
    simp only [operandTokens, List.cons_append, related?, Operator.word, if_true, hl]
    rfl
  · obtain ⟨o, ho⟩ := h.single hop
    dsimp only at ho
    subst ho
    cases op with
    | among => exact absurd rfl hop
    | equal | atLeast | atMost => cases o <;> rfl

theorem comparison?_tokens {c : Comparison} (h : c.IsPlain) (ts : List Token) :
    comparison? (c.tokens ++ ts) = some (c, ts) := by
  have hr := related?_tokens h ts
  have hs : subject? (c.tokens ++ ts) =
      some (c.subject, .word c.operator.word :: c.operandTokens ++ ts) := by
    obtain ⟨s, op, os⟩ := c
    cases s with
    | column name => rfl
    | length name => rfl
  rw [comparison?, hs]
  dsimp only
  rw [hr]
  rfl

end Comparison

def joinedTokens : List Comparison → List Token
  | [] => []
  | [c] => c.tokens ++ [.closing]
  | c :: d :: cs => c.tokens ++ .word "AND".toList :: joinedTokens (d :: cs)

theorem tokens?_joined {cs : List Comparison} (h : ∀ c ∈ cs, c.IsPlain) (hn : cs ≠ []) :
    tokens? (" AND ".toList.intercalate (cs.map Comparison.text) ++ [')']) =
      some (joinedTokens cs) := by
  induction cs with
  | nil => exact absurd rfl hn
  | cons c cs ih =>
    have hc := h c (by simp)
    cases cs with
    | nil =>
      have ht := Comparison.tokens?_text hc (bounded_cons (c := ')') rfl [])
      rw [tokens?_closing, tokens?_nil] at ht
      simpa [joinedTokens] using ht
    | cons d ds =>
      have hd := ih (fun e he => h e (List.mem_cons_of_mem c he)) (by simp)
      have hand : IsWord "AND".toList := ⟨by decide, rfl⟩
      have ht := Comparison.tokens?_text hc (bounded_cons (c := ' ') rfl
        ("AND".toList ++ ' ' :: (" AND ".toList.intercalate ((d :: ds).map Comparison.text)
          ++ [')'])))
      rw [tokens?_blank, tokens?_word hand (bounded_cons rfl _), tokens?_blank, hd] at ht
      rw [List.map_cons, List.map_cons, List.intercalate_cons_cons, ← List.map_cons,
        List.append_assoc, List.append_assoc]
      exact ht

theorem comparisons?_joined {cs : List Comparison} (h : ∀ c ∈ cs, c.IsPlain) (hn : cs ≠ []) :
    comparisons? (joinedTokens cs) = some cs := by
  induction cs with
  | nil => exact absurd rfl hn
  | cons c cs ih =>
    have hc := h c (by simp)
    cases cs with
    | nil => rw [joinedTokens, comparisons?, Comparison.comparison?_tokens hc]
    | cons d ds =>
      have hd := ih (fun e he => h e (List.mem_cons_of_mem c he)) (by simp)
      rw [joinedTokens, comparisons?, Comparison.comparison?_tokens hc]
      dsimp only
      rw [if_pos rfl, hd]
      rfl

namespace Condition

def comparison (column : List Char) : Condition → Comparison
  | .oneOf values => ⟨.column column, .among, values.map .ofValue⟩
  | .equals v => ⟨.column column, .equal, [.ofValue v]⟩
  | .atLeast b => ⟨.column column, .atLeast, [.bare (bound b).toList]⟩
  | .atMost b => ⟨.column column, .atMost, [.bare (bound b).toList]⟩
  | .lengthAtLeast n => ⟨.length column, .atLeast, [.bare (Nat.repr n).toList]⟩
  | .lengthAtMost n => ⟨.length column, .atMost, [.bare (Nat.repr n).toList]⟩
  | .lengthIs n => ⟨.length column, .equal, [.bare (Nat.repr n).toList]⟩

theorem toList_compared (column value : String) {op : String} {o : List Char}
    (ho : op.toList = ' ' :: o ++ [' ']) :
    (column ++ op ++ value).toList = column.toList ++ ' ' :: o ++ ' ' :: value.toList := by
  simp only [String.toList_append, ho, List.append_assoc, List.cons_append, List.nil_append]

theorem toList_lengthCompared (column value : String) {call op : String} {w o : List Char}
    (hw : call.toList = w ++ ['(']) (ho : op.toList = ')' :: ' ' :: o ++ [' ']) :
    (call ++ column ++ op ++ value).toList =
      w ++ '(' :: column.toList ++ [')'] ++ ' ' :: o ++ ' ' :: value.toList := by
  simp only [String.toList_append, hw, ho, List.append_assoc, List.cons_append, List.nil_append]

theorem toList_listed (column : String) (values : List Value) {op : String} {o : List Char}
    (ho : op.toList = ' ' :: o ++ " (".toList) :
    (column ++ op ++ ", ".intercalate (values.map literal) ++ ")").toList =
      column.toList ++ ' ' :: o ++ ' ' :: ('(' ::
        ", ".toList.intercalate ((values.map .ofValue).map Operand.text) ++ [')']) := by
  have hvs : values.map (String.toList ∘ literal) = values.map (Operand.text ∘ .ofValue) :=
    List.map_congr_left fun v _ => (Operand.text_ofValue v).symm
  simp [ho, hvs]

theorem toList_text (column : String) (k : Condition) :
    (k.text column).toList = (k.comparison column.toList).text := by
  cases k with
  | oneOf values => exact toList_listed column values rfl
  | equals v =>
    have ht : (column ++ " = " ++ literal v).toList =
        column.toList ++ ' ' :: "=".toList ++ ' ' :: (literal v).toList :=
      toList_compared column (literal v) rfl
    rw [← Operand.text_ofValue] at ht
    exact ht
  | atLeast b | atMost b => exact toList_compared column (bound b) rfl
  | lengthAtLeast n | lengthAtMost n | lengthIs n =>
    exact toList_lengthCompared column (Nat.repr n) rfl rfl

theorem isPlain_comparison {column : List Char} (h : IsWord column) (k : Condition) :
    (k.comparison column).IsPlain := by
  have hbound (b : Number) : IsWord (bound b).toList := by
    cases b with
    | int n => exact isWord_of_isNumeral (IsNumeral.numeral n)
    | float x => exact isWord_of_isNumeral (IsNumeral.binary64 x)
  have hrepr (n : Nat) : IsWord (Nat.repr n).toList := isWord_of_isNumeral (IsNumeral.repr n)
  cases k with
  | oneOf values =>
    refine ⟨h, ?_, fun hop => absurd rfl hop⟩
    intro o ho
    obtain ⟨v, -, rfl⟩ := List.mem_map.mp ho
    exact Operand.isPlain_ofValue v
  | equals v =>
    exact ⟨h, List.forall_mem_singleton.mpr (Operand.isPlain_ofValue v), fun _ => ⟨_, rfl⟩⟩
  | atLeast b | atMost b => exact ⟨h, List.forall_mem_singleton.mpr (hbound b), fun _ => ⟨_, rfl⟩⟩
  | lengthAtLeast n | lengthAtMost n | lengthIs n =>
    exact ⟨h, List.forall_mem_singleton.mpr (hrepr n), fun _ => ⟨_, rfl⟩⟩

end Condition

theorem toList_enclosed {opening : String} {w : List Char} (body : String)
    (h : opening.toList = w ++ ['(']) :
    (opening ++ body ++ ")").toList = w ++ '(' :: (body.toList ++ [')']) := by
  simp [h]

/-- The text of a check reads back as the conditions it was written from. -/
theorem readCheck?_checkClause {column : String} (h : IsWord column.toList) (k : Condition)
    (ks : List Condition) :
    ∃ text, checkClause? column (k :: ks) = some text ∧
      readCheck? text.toList = some ((k :: ks).map (·.comparison column.toList)) := by
  refine ⟨_, rfl, ?_⟩
  have hplain : ∀ c ∈ (k :: ks).map (·.comparison column.toList), c.IsPlain := by
    intro c hc
    obtain ⟨l, -, rfl⟩ := List.mem_map.mp hc
    exact l.isPlain_comparison h
  have hbody : (" AND ".intercalate ((k :: ks).map (·.text column))).toList =
      " AND ".toList.intercalate
        (((k :: ks).map (·.comparison column.toList)).map Comparison.text) := by
    rw [String.toList_intercalate, List.map_map, List.map_map]
    congr 1
    exact List.map_congr_left fun l _ => l.toList_text column
  -- First the text becomes tokens, from the inside out, and then these are read.
  have hj := tokens?_joined hplain (by simp)
  have hcheck : IsWord "CHECK".toList := ⟨by decide, rfl⟩
  have ht := tokens?_word hcheck (bounded_cons (c := '(') rfl
    ((" AND ".intercalate ((k :: ks).map (·.text column))).toList ++ [')']))
  rw [tokens?_opening, hbody, hj] at ht
  have hopening : "CHECK(".toList = "CHECK".toList ++ ['('] := rfl
  have htext := toList_enclosed (" AND ".intercalate ((k :: ks).map (·.text column))) hopening
  rw [hbody] at htext
  rw [htext, readCheck?, ht]
  dsimp only [Option.map_some]
  rw [if_pos rfl]
  exact comparisons?_joined hplain (by simp)

end Tablewright.Sql
