import Mathlib.Data.List.Forall2
import Mathlib.Data.List.TakeWhile
import Tablewright.Numeric.Reading
import Tablewright.Proofs.Numeric.Whole
import Tablewright.Proofs.Text.JsonText

namespace Tablewright.Json

/-- The pieces of a line: a bracket, brace, comma or colon, a text between quotes, or a word, which
is a name or a number. -/
inductive Token
  | mark (c : Char)
  | text (s : String)
  | word (w : List Char)
  deriving DecidableEq, Repr

def isSpace (c : Char) : Bool := c == ' ' || c == '\t' || c == '\n' || c == '\r'

def isMark (c : Char) : Bool := ['[', ']', '\x7b', '\x7d', ',', ':'].contains c

def isWordChar (c : Char) : Bool := !isSpace c && !isMark c && c != '"'

def tokens? : List Char → Option (List Token)
  | [] => some []
  | c :: cs =>
    if isSpace c then tokens? cs
    else if isMark c then (tokens? cs).map (.mark c :: ·)
    else if c = '"' then
      match _h : readText? cs with
      | none => none
      | some (s, rest) => (tokens? rest).map (.text s :: ·)
    else (tokens? (cs.dropWhile isWordChar)).map (.word (c :: cs.takeWhile isWordChar) :: ·)
termination_by cs => cs.length
decreasing_by
  all_goals simp only [List.length_cons]
  · omega
  · omega
  · have := length_lt_of_readText? _h
    omega
  · have := (List.dropWhile_sublist (l := cs) isWordChar).length_le
    omega

/-- A number: digits, perhaps behind a minus sign and with no zero in front of others. With a
fraction or an exponent behind them it is a double. -/
def number? (w : List Char) : Option Json :=
  let negative := w.head? == some '-'
  let body := if negative then w.drop 1 else w
  let whole := body.takeWhile Char.isDigit
  let float := (readMagnitude? asciiDigit? negative body).map Json.float
  if whole = [] || (whole.head? = some '0' && whole ≠ ['0']) then none
  else
    match body.dropWhile Char.isDigit with
    | [] => some (.int (withSign negative (Nat.ofDigitChars 10 whole 0)))
    | '.' :: d :: _ => if d.isDigit then float else none
    | '.' :: [] => none
    | _ => float

def scalar? (w : List Char) : Option Json :=
  if w = "null".toList then some .null
  else if w = "true".toList then some (.bool true)
  else if w = "false".toList then some (.bool false)
  else if w = "NaN".toList then some (.float .nan)
  else if w = "Infinity".toList then some (.float (.infinity false))
  else if w = "-Infinity".toList then some (.float (.infinity true))
  else number? w

/-- What is open around a place: a list or an object with what it holds already, and in an object
the name that waits for its value. -/
inductive Frame
  | list (items : List Json)
  | object (fields : List (String × Json))
  | field (fields : List (String × Json)) (name : String)

/-- What is due at a place, or the value that was read last. -/
inductive Stage
  | value
  | name
  | colon
  | done (j : Json)

structure State where
  stage : Stage
  frames : List Frame

def begin? (frames : List Frame) : Token → Option State
  | .text s => some ⟨.done (.text s), frames⟩
  | .word w => (scalar? w).map fun j => ⟨.done j, frames⟩
  | .mark c =>
    if c = '[' then some ⟨.value, .list [] :: frames⟩
    else if c = '\x7b' then some ⟨.name, .object [] :: frames⟩
    else none

def finish? (j : Json) : List Frame → Token → Option State
  | .list items :: frames, .mark c =>
    if c = ',' then some ⟨.value, .list (items ++ [j]) :: frames⟩
    else if c = ']' then some ⟨.done (.list (items ++ [j])), frames⟩
    else none
  | .field fields name :: frames, .mark c =>
    if c = ',' then some ⟨.name, .object (fields ++ [(name, j)]) :: frames⟩
    else if c = '\x7d' then some ⟨.done (.object (fields ++ [(name, j)])), frames⟩
    else none
  | _, _ => none

def State.step? (s : State) (t : Token) : Option State :=
  match s.stage, s.frames with
  | .value, .list [] :: frames =>
    if t = .mark ']' then some ⟨.done (.list []), frames⟩ else begin? s.frames t
  | .value, _ => begin? s.frames t
  | .name, .object fields :: frames =>
    match t with
    | .text name => some ⟨.colon, .field fields name :: frames⟩
    | _ =>
      if t = .mark '\x7d' ∧ fields.isEmpty then some ⟨.done (.object []), frames⟩ else none
  | .colon, _ => if t = .mark ':' then some ⟨.value, s.frames⟩ else none
  | .done j, _ => finish? j s.frames t
  | .name, _ => none

def decode? (line : List Char) : Option Json := do
  let ts ← tokens? line
  match ← ts.foldlM State.step? ⟨.value, []⟩ with
  | ⟨.done j, []⟩ => some j
  | _ => none

def separated (parts : List (List Token)) : List Token := [Token.mark ','].intercalate parts

mutual

def tokens : Json → List Token
  | .null => [.word "null".toList]
  | .bool b => [.word (if b then "true" else "false").toList]
  | .int n => [.word (numeral n).toList]
  | .float x => [.word (float64 x).toList]
  | .text s => [.text s]
  | .list items => .mark '[' :: (separated (itemTokens items) ++ [.mark ']'])
  | .object fields => .mark '\x7b' :: (separated (fieldTokens fields) ++ [.mark '\x7d'])

def itemTokens : List Json → List (List Token)
  | [] => []
  | j :: js => tokens j :: itemTokens js

def fieldTokens : List (String × Json) → List (List Token)
  | [] => []
  | (name, j) :: fs => (.text name :: .mark ':' :: tokens j) :: fieldTokens fs

end

def EndsWord (rest : List Char) : Prop := ∀ c ∈ rest.head?, isWordChar c = false

/-- Some characters are read as tokens of their own, whatever ends the last of them. -/
def Lexes (cs : List Char) (ts : List Token) : Prop :=
  ∀ rest, EndsWord rest → tokens? (cs ++ rest) = (tokens? rest).map (ts ++ ·)

@[simp]
theorem tokens?_nil : tokens? [] = some [] := by rw [tokens?]

theorem tokens?_blank (cs : List Char) : tokens? (' ' :: cs) = tokens? cs := by
  rw [tokens?, if_pos (by decide)]

theorem isSpace_of_isMark {c : Char} (h : isMark c = true) : isSpace c = false := by
  have hall : ['[', ']', '\x7b', '\x7d', ',', ':'].all (!isSpace ·) = true := by decide
  simpa using List.all_eq_true.mp hall c (List.contains_iff_mem.mp h)

theorem tokens?_mark {c : Char} (h : isMark c = true) (cs : List Char) :
    tokens? (c :: cs) = (tokens? cs).map (.mark c :: ·) := by
  rw [tokens?, if_neg (by simp [isSpace_of_isMark h]), if_pos h]

theorem endsWord_nil : EndsWord [] := nofun

theorem endsWord_mark {c : Char} (h : isMark c = true) (cs : List Char) : EndsWord (c :: cs) := by
  rintro d ⟨⟩
  simp [isWordChar, h]

namespace Lexes

theorem word {w : List Char} (hn : w ≠ []) (hw : w.all isWordChar = true) :
    Lexes w [.word w] := by
  intro rest hr
  obtain ⟨c, cs, rfl⟩ := List.exists_cons_of_ne_nil hn
  rw [List.all_eq_true, List.forall_mem_cons] at hw
  obtain ⟨hc, hcs⟩ := hw
  simp only [isWordChar, Bool.and_eq_true, Bool.not_eq_true', bne_iff_ne] at hc
  obtain ⟨⟨hspace, hmark⟩, hquote⟩ := hc
  rw [List.cons_append, tokens?, if_neg (by simp [hspace]), if_neg (by simp [hmark]),
    if_neg hquote, Sql.takeWhile_append_boundary hcs hr, Sql.dropWhile_append_boundary hcs hr]
  rfl

theorem quote (s : String) : Lexes (quote s) [.text s] := by
  intro rest _
  have hread : readText? ((s.toList.map Char.toNat).flatMap escapePoint ++ '"' :: rest) =
      some (s, rest) := readText?_points rest s
  have hquote : Json.quote s ++ rest =
      '"' :: ((s.toList.map Char.toNat).flatMap escapePoint ++ '"' :: rest) := by
    simp [Json.quote, quotePoints]
  rw [hquote, tokens?, if_neg (by decide), if_neg (by decide), if_pos rfl]
  split
  · rename_i hn
    rw [hread] at hn
    cases hn
  · rename_i t more ht
    rw [hread] at ht
    cases ht
    rfl

theorem separated {parts : List (List Char)} {tss : List (List Token)}
    (h : List.Forall₂ Lexes parts tss) : Lexes (commas parts) (separated tss) := by
  intro rest hr
  induction h with
  | nil => simp [commas, Json.separated]
  | @cons x ts xs tss hx hrest ih =>
    cases hrest with
    | nil => simpa [commas, Json.separated] using hx rest hr
    | @cons y us ys uss hy hys =>
      have hcomma : EndsWord (',' :: ' ' :: (commas (y :: ys) ++ rest)) := endsWord_mark rfl _
      have hx := hx _ hcomma
      rw [tokens?_mark rfl, tokens?_blank, ih] at hx
      simpa [commas, Json.separated, List.intercalate_cons_cons, Function.comp_def] using hx

theorem enclosed {cs : List Char} {ts : List Token} (h : Lexes cs ts) {opening closing : Char}
    (ho : isMark opening = true) (hc : isMark closing = true) :
    Lexes (opening :: cs ++ [closing]) (.mark opening :: (ts ++ [.mark closing])) := by
  intro rest _
  have hbody := h (closing :: rest) (endsWord_mark hc rest)
  rw [tokens?_mark hc] at hbody
  rw [List.cons_append, List.cons_append, List.append_assoc, List.singleton_append,
    tokens?_mark ho, hbody]
  simp [Function.comp_def]

theorem field (name : String) {cs : List Char} {ts : List Token} (h : Lexes cs ts) :
    Lexes (Json.quote name ++ ':' :: ' ' :: cs) (.text name :: .mark ':' :: ts) := by
  intro rest hr
  have hname := quote name (':' :: ' ' :: (cs ++ rest)) (endsWord_mark rfl _)
  rw [tokens?_mark rfl, tokens?_blank, h rest hr] at hname
  simpa [Function.comp_def] using hname

end Lexes

theorem isWordChar_of_isNumeralChar {c : Char} (h : isNumeralChar c = true) :
    isWordChar c = true := by
  simp only [isWordChar, isSpace, isMark, Bool.and_eq_true, Bool.not_eq_true',
    Bool.or_eq_false_iff, beq_eq_false_iff_ne, bne_iff_ne, List.contains_eq_mem,
    decide_eq_false_iff_not, List.mem_cons, List.not_mem_nil, or_false, not_or]
  refine ⟨⟨⟨⟨⟨?_, ?_⟩, ?_⟩, ?_⟩, ?_, ?_, ?_, ?_, ?_, ?_⟩, ?_⟩ <;> rintro rfl <;>
    exact absurd h (by decide)

theorem lexes_numeral {s : String} (h : IsNumeral s) : Lexes s.toList [.word s.toList] :=
  .word h.1 (List.all_eq_true.mpr fun c hc =>
    isWordChar_of_isNumeralChar (List.all_eq_true.mp h.2 c hc))

theorem lexes_float (x : Binary64) : Lexes (float64 x).toList [.word (float64 x).toList] := by
  cases x with
  | nan => exact .word (by decide) (by decide)
  | infinity negative => cases negative <;> exact .word (by decide) (by decide)
  | finite negative units => exact lexes_numeral (IsNumeral.binary64 _)

mutual

theorem lexes_encode : ∀ j : Json, Lexes j.encode j.tokens
  | .null => .word (by decide) (by decide)
  | .bool b => by cases b <;> exact .word (by decide) (by decide)
  | .int n => lexes_numeral (IsNumeral.numeral n)
  | .float x => lexes_float x
  | .text s => .quote s
  | .list items => (Lexes.separated (lexes_encodeItems items)).enclosed rfl rfl
  | .object fields => (Lexes.separated (lexes_encodeFields fields)).enclosed rfl rfl

theorem lexes_encodeItems : ∀ js : List Json,
    List.Forall₂ Lexes (encodeItems js) (itemTokens js)
  | [] => .nil
  | j :: js => .cons (lexes_encode j) (lexes_encodeItems js)

theorem lexes_encodeFields : ∀ fs : List (String × Json),
    List.Forall₂ Lexes (encodeFields fs) (fieldTokens fs)
  | [] => .nil
  | (name, j) :: fs => .cons ((lexes_encode j).field name) (lexes_encodeFields fs)

end

def Runs (s : State) (ts : List Token) (t : State) : Prop := ts.foldlM State.step? s = some t

namespace Runs

variable {s t u : State} {ts us : List Token}

theorem append (h : Runs s ts t) (h' : Runs t us u) : Runs s (ts ++ us) u := by
  rw [Runs, List.foldlM_append, h]
  exact h'

theorem cons {token : Token} (h : s.step? token = some t) (h' : Runs t us u) :
    Runs s (token :: us) u := by
  rw [Runs, List.foldlM_cons, h]
  exact h'

theorem single {token : Token} (h : s.step? token = some t) : Runs s [token] t := cons h rfl

end Runs

/-- A value that holds no double. -/
inductive Exact : Json → Prop
  | null : Exact .null
  | bool (b : Bool) : Exact (.bool b)
  | int (n : Int) : Exact (.int n)
  | text (s : String) : Exact (.text s)
  | list {items : List Json} (each : ∀ j ∈ items, Exact j) : Exact (.list items)
  | object {fields : List (String × Json)} (each : ∀ p ∈ fields, Exact p.2) :
      Exact (.object fields)

theorem number?_digits {ds : List Char} (h : IsDigits ds)
    (hz : ds.head? = some '0' → ds = ['0']) :
    number? ds = some (.int (Nat.ofDigitChars 10 ds 0)) ∧
    number? ('-' :: ds) = some (.int (-(Nat.ofDigitChars 10 ds 0 : Int))) := by
  obtain ⟨hn, hd⟩ := h
  have htake : ds.takeWhile Char.isDigit = ds := List.takeWhile_eq_self_iff.mpr hd
  have hdrop : ds.dropWhile Char.isDigit = [] := List.dropWhile_eq_nil_iff.mpr hd
  have hsign : ds.head? ≠ some '-' := by
    intro hm
    exact absurd (hd '-' (List.mem_of_head? hm)) (by decide)
  have hzero : ¬(decide (ds = []) || (decide (ds.head? = some '0') && decide (ds ≠ ['0']))) := by
    simpa [hn] using hz
  constructor
  · simp only [number?, beq_iff_eq, hsign, if_false, htake, hdrop, hzero]
    simp [withSign, hsign]
  · simp only [number?, List.head?_cons, beq_self_eq_true, if_true, List.drop_succ_cons,
      List.drop_zero, htake, hdrop, hzero]
    simp [withSign]

theorem toDigits_head (n : Nat) (h : (Nat.toDigits 10 n).head? = some '0') :
    Nat.toDigits 10 n = ['0'] := by
  obtain rfl | hn := Nat.eq_zero_or_pos n
  · rfl
  · obtain ⟨d, ds, hds, hd⟩ := toDigits_leading hn
    rw [hds] at h
    exact absurd (Option.some.inj h) hd

theorem number?_numeral (n : Int) : number? (numeral n).toList = some (.int n) := by
  obtain ⟨hplain, hnegative⟩ :=
    number?_digits (IsDigits.toDigits n.natAbs) (toDigits_head n.natAbs)
  rw [Nat.ofDigitChars_ten_toDigits] at hplain hnegative
  unfold numeral
  split
  · rw [String.toList_append, Nat.toList_repr]
    refine hnegative.trans ?_
    congr
    omega
  · rw [Nat.toList_repr, hplain]
    congr
    omega

theorem scalar?_numeral (n : Int) : scalar? (numeral n).toList = some (.int n) := by
  have hnames : ∀ w ∈ ["null", "true", "false", "NaN", "Infinity", "-Infinity"],
      (numeral n).toList ≠ w.toList := by
    intro w hw he
    have hnone : ∀ w ∈ ["null", "true", "false", "NaN", "Infinity", "-Infinity"],
        Sql.readWhole? w.toList = none := by decide
    have hread := Sql.readWhole?_numeral n
    rw [he, hnone w hw] at hread
    cases hread
  simp only [List.mem_cons, List.not_mem_nil, or_false, forall_eq_or_imp, forall_eq] at hnames
  obtain ⟨hnull, htrue, hfalse, hnan, hinfinity, hminus⟩ := hnames
  rw [scalar?, if_neg hnull, if_neg htrue, if_neg hfalse, if_neg hnan, if_neg hinfinity,
    if_neg hminus, number?_numeral]

theorem step?_value {t : Token} (h : t ≠ .mark ']') (frames : List Frame) :
    State.step? ⟨.value, frames⟩ t = begin? frames t := by
  unfold State.step?
  split <;> simp_all

theorem runs_word {w : List Char} {j : Json} (h : scalar? w = some j) (frames : List Frame) :
    Runs ⟨.value, frames⟩ [.word w] ⟨.done j, frames⟩ := by
  apply Runs.single
  rw [step?_value (by simp), begin?, h]
  rfl

theorem runs_items {items : List Json} (hn : items ≠ [])
    (h : ∀ j ∈ items, ∀ frames, Runs ⟨.value, frames⟩ j.tokens ⟨.done j, frames⟩)
    (before : List Json) (frames : List Frame) :
    Runs ⟨.value, .list before :: frames⟩ (separated (itemTokens items) ++ [.mark ']'])
      ⟨.done (.list (before ++ items)), frames⟩ := by
  induction items generalizing before with
  | nil => exact absurd rfl hn
  | cons j js ih =>
    have hj := h j List.mem_cons_self (.list before :: frames)
    cases js with
    | nil =>
      have hclose : Runs ⟨.done j, .list before :: frames⟩ [.mark ']']
          ⟨.done (.list (before ++ [j])), frames⟩ := .single rfl
      simpa [separated, itemTokens] using hj.append hclose
    | cons k ks =>
      have hnext : State.step? ⟨.done j, .list before :: frames⟩ (.mark ',') =
          some ⟨.value, .list (before ++ [j]) :: frames⟩ := rfl
      have hrest := ih (by simp) (fun i hi => h i (List.mem_cons_of_mem j hi)) (before ++ [j])
      simpa [separated, itemTokens, List.intercalate_cons_cons] using
        hj.append (.cons hnext hrest)

theorem runs_fields {fields : List (String × Json)} (hn : fields ≠ [])
    (h : ∀ p ∈ fields, ∀ frames, Runs ⟨.value, frames⟩ p.2.tokens ⟨.done p.2, frames⟩)
    (before : List (String × Json)) (frames : List Frame) :
    Runs ⟨.name, .object before :: frames⟩ (separated (fieldTokens fields) ++ [.mark '\x7d'])
      ⟨.done (.object (before ++ fields)), frames⟩ := by
  induction fields generalizing before with
  | nil => exact absurd rfl hn
  | cons p ps ih =>
    obtain ⟨name, j⟩ := p
    have hj : Runs ⟨.name, .object before :: frames⟩ (.text name :: .mark ':' :: j.tokens)
        ⟨.done j, .field before name :: frames⟩ :=
      .cons rfl (.cons rfl (h (name, j) List.mem_cons_self (.field before name :: frames)))
    cases ps with
    | nil =>
      have hclose : Runs ⟨.done j, .field before name :: frames⟩ [.mark '\x7d']
          ⟨.done (.object (before ++ [(name, j)])), frames⟩ := .single rfl
      simpa [separated, fieldTokens] using hj.append hclose
    | cons q qs =>
      have hnext : State.step? ⟨.done j, .field before name :: frames⟩ (.mark ',') =
          some ⟨.name, .object (before ++ [(name, j)]) :: frames⟩ := rfl
      have hrest := ih (by simp) (fun i hi => h i (List.mem_cons_of_mem _ hi))
        (before ++ [(name, j)])
      simpa [separated, fieldTokens, List.intercalate_cons_cons] using
        hj.append (.cons hnext hrest)

/-- Where a value is due, its tokens make that value, whatever is open around the place. -/
theorem runs_tokens {j : Json} (h : j.Exact) (frames : List Frame) :
    Runs ⟨.value, frames⟩ j.tokens ⟨.done j, frames⟩ := by
  induction h generalizing frames with
  | null => exact runs_word rfl frames
  | bool b => cases b <;> exact runs_word rfl frames
  | int n => exact runs_word (scalar?_numeral n) frames
  | text s => exact .single (step?_value (by simp) frames)
  | @list items _ ih =>
    refine .cons (step?_value (by simp) frames) ?_
    by_cases hn : items = []
    · subst hn
      exact .single rfl
    · exact runs_items hn ih [] frames
  | @object fields _ ih =>
    refine .cons (step?_value (by simp) frames) ?_
    by_cases hn : fields = []
    · subst hn
      exact .single rfl
    · exact runs_fields hn ih [] frames

theorem decode?_encode {j : Json} (h : j.Exact) : decode? j.encode = some j := by
  have hlex := lexes_encode j [] endsWord_nil
  rw [List.append_nil, tokens?_nil, Option.map_some, List.append_nil] at hlex
  have hrun := runs_tokens h []
  rw [Runs] at hrun
  simp only [decode?, hlex, hrun, Option.bind_eq_bind, Option.bind_some]

end Tablewright.Json
