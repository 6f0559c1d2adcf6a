import Tablewright.Proofs.Sql.Column

namespace Tablewright.Sql

/-- The pieces that a condition is written in. A word is a name, an operator or a bare value. -/
inductive Token
  | word (cs : List Char)
  | literal (contents : List Char)
  | opening
  | closing
  | comma
  deriving DecidableEq, Repr

def isDelimiter (c : Char) : Bool := c == ' ' || c == '(' || c == ')' || c == ','

def isWordChar (c : Char) : Bool := !isDelimiter c && c != '\''

def tokens? : List Char → Option (List Token)
  | [] => some []
  | c :: cs =>
    if c = ' ' then tokens? cs
    else if c = '(' then (tokens? cs).map (.opening :: ·)
    else if c = ')' then (tokens? cs).map (.closing :: ·)
    else if c = ',' then (tokens? cs).map (.comma :: ·)
    else if c = '\'' then
      match _h : closeLiteral? cs with
      | none => none
      | some (s, rest) => (tokens? rest).map (.literal s :: ·)
    else (tokens? (cs.dropWhile isWordChar)).map (.word (c :: cs.takeWhile isWordChar) :: ·)
termination_by cs => cs.length
decreasing_by
  all_goals simp only [List.length_cons]
  · omega
  · omega
  · omega
  · omega
  · have := length_lt_of_closeLiteral? _h
    omega
  · have := (List.dropWhile_sublist (l := cs) isWordChar).length_le
    omega

@[simp]
theorem tokens?_nil : tokens? [] = some [] := by rw [tokens?]

theorem tokens?_blank (cs : List Char) : tokens? (' ' :: cs) = tokens? cs := by
  rw [tokens?, if_pos rfl]

theorem tokens?_opening (cs : List Char) :
    tokens? ('(' :: cs) = (tokens? cs).map (.opening :: ·) := by
  rw [tokens?, if_neg (by decide), if_pos rfl]

theorem tokens?_closing (cs : List Char) :
    tokens? (')' :: cs) = (tokens? cs).map (.closing :: ·) := by
  rw [tokens?, if_neg (by decide), if_neg (by decide), if_pos rfl]

theorem tokens?_comma (cs : List Char) :
    tokens? (',' :: cs) = (tokens? cs).map (.comma :: ·) := by
  rw [tokens?, if_neg (by decide), if_neg (by decide), if_neg (by decide), if_pos rfl]

def Bounded (rest : List Char) : Prop := ∀ c ∈ rest.head?, isDelimiter c = true

theorem bounded_cons {c : Char} (h : isDelimiter c = true) (cs : List Char) :
    Bounded (c :: cs) := by
  rintro d ⟨⟩
  exact h

theorem Bounded.startsAnew {rest : List Char} (h : Bounded rest) : StartsAnew rest := by
  intro hq
  exact absurd (h '\'' hq) (by decide)

theorem tokens?_literal (s : List Char) {rest : List Char} (h : Bounded rest) :
    tokens? ('\'' :: (encode s ++ '\'' :: rest)) = (tokens? rest).map (.literal s :: ·) := by
  rw [tokens?, if_neg (by decide), if_neg (by decide), if_neg (by decide), if_neg (by decide),
    if_pos rfl]
  split
  · rename_i hn
    rw [closeLiteral?_encode s h.startsAnew] at hn
    cases hn
  · rename_i t more hs
    rw [closeLiteral?_encode s h.startsAnew] at hs
    cases hs
    rfl

def IsWord (w : List Char) : Prop := w ≠ [] ∧ w.all isWordChar = true

theorem tokens?_word {w rest : List Char} (hw : IsWord w) (hr : Bounded rest) :
    tokens? (w ++ rest) = (tokens? rest).map (.word w :: ·) := by
  obtain ⟨hn, ha⟩ := hw
  cases w with
  | nil => exact absurd rfl hn
  | cons c cs =>
    rw [List.all_cons, Bool.and_eq_true] at ha
    obtain ⟨hc, hcs⟩ := ha
    have hall : ∀ d ∈ cs, isWordChar d = true := List.all_eq_true.mp hcs
    have hstop : ∀ d ∈ rest.head?, isWordChar d = false := by
      intro d hd
      rw [isWordChar, hr d hd]
      rfl
    simp only [isWordChar, isDelimiter, Bool.and_eq_true, Bool.not_eq_true', Bool.or_eq_false_iff,
      beq_eq_false_iff_ne, bne_iff_ne] at hc
    obtain ⟨⟨⟨⟨hblank, hopen⟩, hclose⟩, hcomma⟩, hquote⟩ := hc
    rw [List.cons_append, tokens?, if_neg hblank, if_neg hopen, if_neg hclose, if_neg hcomma,
      if_neg hquote, takeWhile_append_boundary hall hstop, dropWhile_append_boundary hall hstop]

theorem isWordChar_of_isNumeralChar {c : Char} (h : isNumeralChar c = true) :
    isWordChar c = true := by
  simp only [isWordChar, isDelimiter, Bool.and_eq_true, Bool.not_eq_true', Bool.or_eq_false_iff,
    beq_eq_false_iff_ne, bne_iff_ne]
  refine ⟨⟨⟨⟨?_, ?_⟩, ?_⟩, ?_⟩, ?_⟩ <;> rintro rfl <;> exact absurd h (by decide)

theorem isWord_of_isNumeral {s : String} (h : IsNumeral s) : IsWord s.toList := by
  refine ⟨h.1, ?_⟩
  rw [List.all_eq_true]
  intro c hc
  exact isWordChar_of_isNumeralChar (List.all_eq_true.mp h.2 c hc)

/-- A value as a condition compares with it: a bare word, or the contents of a literal. -/
inductive Operand
  | bare (w : List Char)
  | quoted (s : List Char)
  deriving DecidableEq, Repr

namespace Operand

def text : Operand → List Char
  | .bare w => w
  | .quoted s => '\'' :: encode s ++ ['\'']

def token : Operand → Token
  | .bare w => .word w
  | .quoted s => .literal s

def IsPlain : Operand → Prop
  | .bare w => IsWord w
  | .quoted _ => True

def ofValue (v : Value) : Operand :=
  if isQuoted v then .quoted v.storedText.toList else .bare (literal v).toList

theorem text_ofValue (v : Value) : (ofValue v).text = (literal v).toList := by
  cases v with
  | null | bool | int | float => rfl
  | _ => exact String.toList_ofList.symm

theorem isPlain_ofValue (v : Value) : (ofValue v).IsPlain := by
  cases v with
  | null => exact ⟨by decide, rfl⟩
  | bool b => cases b <;> exact ⟨by decide, rfl⟩
  | int n => exact isWord_of_isNumeral (IsNumeral.numeral n)
  | float x => exact isWord_of_isNumeral (IsNumeral.binary64 x)
  | _ => trivial

end Operand

theorem tokens?_operand {o : Operand} (ho : o.IsPlain) {rest : List Char} (h : Bounded rest) :
    tokens? (o.text ++ rest) = (tokens? rest).map (o.token :: ·) := by
  cases o with
  | bare w => exact tokens?_word ho h
  | quoted s =>
    have hs := tokens?_literal s h
    simpa [Operand.text, Operand.token] using hs

end Tablewright.Sql
