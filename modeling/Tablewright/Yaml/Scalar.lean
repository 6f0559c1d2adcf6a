import Tablewright.Yaml.Input

namespace Tablewright.Yaml.Scalar

/-- Line breaks inside a scalar become a blank, or the breaks after the first one. -/
def fold (first : Char) (more : List Char) : List Char :=
  (if first ≠ '\n' then [first] else if more.isEmpty then [' '] else []) ++ more

/-! ### Plain scalars -/

/-- The breaks and blanks after the end of a line. A document marker ends them. -/
def plainBreaks : Nat → Input → Option (List Char) × Input
  | 0, i => (some [], i)
  | fuel + 1, i =>
    if i.isAt ' ' then plainBreaks fuel i.next
    else match i.takeBreak? with
      | none => (some [], i)
      | some (b, i) =>
        if i.isDocumentMarker then (none, i)
        else
          let (bs, i) := plainBreaks fuel i
          (bs.map (b :: ·), i)

/-- The white space after a word of a plain scalar: what it means if the scalar goes on, and
whether a line ended in it. -/
def plainSpaces (i : Input) : List Char × Bool × Input :=
  let (blanks, i) := i.span (· == ' ')
  match i.takeBreak? with
  | none => (blanks, false, i)
  | some (b, i) =>
    if i.isDocumentMarker then ([], true, i)
    else match plainBreaks i.rest.length i with
      | (none, i) => ([], true, i)
      | (some bs, i) => (fold b bs, true, i)

def isFlowMark (c : Char) : Bool := c == ',' || c == '[' || c == ']' || c == '\x7b' || c == '\x7d'

def wordLength (inFlow : Bool) : List Char → Nat
  | [] => 0
  | c :: cs =>
    let after := cs.head?
    if isBreak c || isGap c then 0
    else if c = ':' && (endsWord after || (inFlow && after.any isFlowMark)) then 0
    else if inFlow && (isFlowMark c || c == '?') then 0
    else wordLength inFlow cs + 1

/-- A plain scalar, and whether a line ended after it. It goes on over lines that are indented by
at least `indent`. -/
def plain (inFlow : Bool) (indent : Int) :
    Nat → List Char → Bool → Input → List Char × Bool × Input
  | 0, _, ended, i => ([], ended, i)
  | fuel + 1, gap, ended, i =>
    let n := if i.isAt '#' then 0 else wordLength inFlow i.rest
    if n = 0 then ([], ended, i)
    else
      let word := gap ++ i.rest.take n
      let (gap, ended, i) := plainSpaces (i.skip n)
      if gap.isEmpty || i.isAt '#' || (!inFlow && i.column < indent) then (word, ended, i)
      else
        let (more, ended, i) := plain inFlow indent fuel gap ended i
        (word ++ more, ended, i)

/-! ### Quoted scalars -/

def escapes : List (Char × Char) :=
  [('0', '\x00'), ('a', '\x07'), ('b', '\x08'), ('t', '\t'), ('\t', '\t'), ('n', '\n'),
    ('v', '\x0b'), ('f', '\x0c'), ('r', '\r'), ('e', '\x1b'), (' ', ' '), ('"', '"'),
    ('\\', '\\'), ('/', '/'), ('N', '\x85'), ('_', '\xa0'), ('L', '\u2028'), ('P', '\u2029')]

def codeLength? (c : Char) : Option Nat := [('x', 2), ('u', 4), ('U', 8)].lookup c

def hexValue? (c : Char) : Option Nat :=
  if '0' ≤ c ∧ c ≤ '9' then some (c.toNat - '0'.toNat)
  else if 'a' ≤ c ∧ c ≤ 'f' then some (c.toNat - 'a'.toNat + 10)
  else if 'A' ≤ c ∧ c ≤ 'F' then some (c.toNat - 'A'.toNat + 10)
  else none

def hexNumber? (cs : List Char) : Nat → Option Nat
  | 0 => some 0
  | n + 1 =>
    match hexNumber? cs n, (cs[n]?).bind hexValue? with
    | some high, some low => some (16 * high + low)
    | _, _ => none

def char? (n : Nat) : Option Char := if n.isValidChar then some (Char.ofNat n) else none

/-- The line breaks and the white space after the end of a line inside quotes. -/
def quotedBreaks? : Nat → Input → Option (List Char × Input)
  | 0, _ => none
  | fuel + 1, i =>
    if i.isDocumentMarker then none
    else
      let i := i.skipWhile isGap
      match i.takeBreak? with
      | none => some ([], i)
      | some (b, i) => (quotedBreaks? fuel i).map fun (bs, i) => (b :: bs, i)

def escape? (i : Input) : Option (List Char × Input) :=
  match i.peek with
  | none => none
  | some c =>
    match escapes.lookup c, codeLength? c with
    | some d, _ => some ([d], i.next)
    | none, some n => do
      let code ← hexNumber? i.next.rest n
      let d ← char? code
      return ([d], i.next.skip n)
    | none, none =>
      match i.takeBreak? with
      | some (_, i) => quotedBreaks? (i.rest.length + 1) i
      | none => none

def quotedSpaces? (i : Input) : Option (List Char × Input) :=
  let (gap, i) := i.span isGap
  match i.takeBreak? with
  | none => some (gap, i)
  | some (b, i) => (quotedBreaks? (i.rest.length + 1) i).map fun (bs, i) => (fold b bs, i)

def quoted? (quote : Char) : Nat → Input → Option (List Char × Input)
  | 0, _ => none
  | fuel + 1, i => do
    let c ← i.peek
    let (part, after) ←
      if c = quote then
        if quote = '\'' && i.peekAt 1 == some '\'' then some (['\''], i.skip 2) else none
      else if c = '\\' && quote = '"' then escape? i.next
      else if isGap c || isBreak c then quotedSpaces? i
      else some ([c], i.next)
    if after.isAt quote && !(quote = '\'' && after.peekAt 1 == some '\'') then
      return (part, after.next)
    else
      let (more, i) ← quoted? quote fuel after
      return (part ++ more, i)

def quotedOrEmpty? (quote : Char) (i : Input) : Option (List Char × Input) :=
  if i.isAt quote && !(quote = '\'' && i.peekAt 1 == some '\'') then some ([], i.next)
  else quoted? quote (i.rest.length + 1) i

/-! ### Block scalars -/

/-- What becomes of the line breaks at the end of a block scalar. -/
inductive Chomping
  | clip | strip | keep
  deriving DecidableEq, Repr

def chomping? (c : Char) : Option Chomping :=
  if c = '+' then some .keep else if c = '-' then some .strip else none

def indentDigit? (c : Char) : Option Nat :=
  if '1' ≤ c ∧ c ≤ '9' then some (c.toNat - '0'.toNat) else none

def header (i : Input) : Chomping × Option Nat × Input :=
  match i.peek.bind chomping? with
  | some chomping =>
    match i.next.peek.bind indentDigit? with
    | some n => (chomping, some n, i.skip 2)
    | none => (chomping, none, i.next)
  | none =>
    match i.peek.bind indentDigit? with
    | none => (.clip, none, i)
    | some n =>
      match i.next.peek.bind chomping? with
      | some chomping => (chomping, some n, i.skip 2)
      | none => (.clip, some n, i.next)

/-- Leading blank lines, and the widest indentation up to the first line with text. -/
def leading : Nat → Nat → Input → List Char × Nat × Input
  | 0, widest, i => ([], widest, i)
  | fuel + 1, widest, i =>
    if i.isAt ' ' then leading fuel (max widest i.next.column) i.next
    else match i.takeBreak? with
      | none => ([], widest, i)
      | some (b, i) =>
        let (bs, widest, i) := leading fuel widest i
        (b :: bs, widest, i)

def skipIndent (indent : Nat) : Nat → Input → Input
  | 0, i => i
  | fuel + 1, i => if i.column < indent && i.isAt ' ' then skipIndent indent fuel i.next else i

def blankLines (indent : Nat) : Nat → Input → List Char × Input
  | 0, i => ([], i)
  | fuel + 1, i =>
    let i := skipIndent indent i.rest.length i
    match i.takeBreak? with
    | none => ([], i)
    | some (b, i) =>
      let (bs, i) := blankLines indent fuel i
      (b :: bs, i)

/-- The lines of a block scalar: their text, the last line break and the blank lines after it. -/
def lines (folded : Bool) (indent : Nat) :
    Nat → List Char → Input → List Char × List Char × List Char × Input
  | 0, breaks, i => ([], [], breaks, i)
  | fuel + 1, breaks, i =>
    if i.column = indent && i.peek.isSome then
      let startsWithText := !i.peek.any isGap
      let (text, i) := i.span (!isBreak ·)
      let (lineBreak, i) := match i.takeBreak? with
        | some (b, i) => ([b], i)
        | none => ([], i)
      let (after, i) := blankLines indent (i.rest.length + 1) i
      if i.column = indent && i.peek.isSome then
        let joint :=
          if folded && lineBreak == ['\n'] && startsWithText && !i.peek.any isGap then
            if after.isEmpty then [' '] else []
          else lineBreak
        let (more, last, tail, i) := lines folded indent fuel after i
        (breaks ++ text ++ joint ++ more, last, tail, i)
      else (breaks ++ text, lineBreak, after, i)
    else ([], [], breaks, i)

/-- A block scalar, after its mark, inside a block that is indented by `outer`. -/
def block? (folded : Bool) (outer : Int) (i : Input) : Option (List Char × Input) := do
  let (chomping, increment, i) := header i
  if !endsItem i.peek then none
  let i ← i.endLine?
  let least := (max (outer + 1) 1).toNat
  let (breaks, indent, i) := match increment with
    | none =>
      let (bs, widest, i) := leading (i.rest.length + 1) 0 i
      (bs, max least widest, i)
    | some n =>
      let (bs, i) := blankLines (least + n - 1) (i.rest.length + 1) i
      (bs, least + n - 1, i)
  let (text, last, tail, i) := lines folded indent (i.rest.length + 1) breaks i
  return (text ++ (if chomping = .strip then [] else last)
    ++ (if chomping = .keep then tail else []), i)

end Tablewright.Yaml.Scalar
