import Tablewright.Yaml.Token

namespace Tablewright.Yaml

/-- A place where the key of a mapping may have started. Only a colon later on the line tells. -/
structure KeyStart where
  slot : Nat
  isRequired : Bool
  index : Nat
  line : Nat
  column : Nat

def KeyStart.isStale (k : KeyStart) (i : Input) : Bool :=
  k.line ≠ i.line || k.index + 1024 < i.index

/-- What a colon puts in front of an earlier token. -/
inductive Opening
  | none | key | mapping
  deriving DecidableEq, Repr

def Opening.tokens : Opening → List Token
  | .none => []
  | .key => [.key]
  | .mapping => [.blockMapping, .key]

/-- A text cut into tokens up to some place: the columns of the open blocks, innermost first, the
depth of flow collections, whether a key may start here and, by depth, where one may have. -/
structure Layout where
  input : Input
  indents : List Nat
  depth : Nat
  keyAllowed : Bool
  keys : List (Nat × KeyStart)
  slots : Array (Opening × Token)

namespace Layout

variable (l : Layout)

def start (cs : List Char) : Layout :=
  let i := Input.ofChars cs
  ⟨if i.isAt orderMark then i.next else i, [], 0, true, [], #[]⟩

def inFlow : Bool := 0 < l.depth

def indent : Int := (l.indents.head?.map Int.ofNat).getD (-1)

def push (t : Token) : Layout := { l with slots := l.slots.push (.none, t) }

def tokens : List Token := l.slots.toList.flatMap fun (o, t) => o.tokens ++ [t]

/-! ### Blocks -/

def endBlocks (p : Nat → Bool) : Layout :=
  if l.inFlow then l
  else
    let ended := l.indents.takeWhile p
    { l with
      indents := l.indents.dropWhile p
      slots := l.slots ++ (ended.map fun _ => (Opening.none, Token.blockEnd)).toArray }

def opensAt (column : Nat) : Bool := !l.inFlow && l.indent < column

def openBlock (column : Nat) (t : Token) : Layout :=
  if l.opensAt column then { l with indents := column :: l.indents }.push t else l

/-! ### Keys -/

def dropStale? : Option Layout :=
  let (stale, keys) := l.keys.partition fun (_, k) => k.isStale l.input
  if stale.any (·.2.isRequired) then none else some { l with keys }

def dropKey? : Option Layout :=
  match l.keys.lookup l.depth with
  | none => some l
  | some k =>
    if k.isRequired then none else some { l with keys := l.keys.filter (·.1 != l.depth) }

/-- Note that a key may start here. In a block, what stands in the column of the block must. -/
def noteKey? : Option Layout :=
  if l.keyAllowed then do
    let i := l.input
    let required := !l.inFlow && l.indent = i.column
    let l ← l.dropKey?
    return { l with
      keys := (l.depth, ⟨l.slots.size, required, i.index, i.line, i.column⟩) :: l.keys }
  else some l

/-! ### Tokens -/

/-- Take a token of so many characters, after which a key may or may not start. -/
def take (t : Token) (length : Nat) (keyAllowed : Bool) : Layout :=
  { l.push t with input := l.input.skip length, keyAllowed }

def takeNode? (node : Option (Token × Input)) : Option Layout := do
  let (t, i) ← node
  let l ← l.noteKey?
  return { l.push t with input := i, keyAllowed := false }

def takeDocumentMarker? (t : Token) : Option Layout := do
  let l ← (l.endBlocks fun _ => true).dropKey?
  return l.take t 3 false

def takeDirective? : Option Layout := do
  let l ← (l.endBlocks fun _ => true).dropKey?
  let (d, i) ← l.input.takeDirective?
  return { l.push (.directive d) with input := i, keyAllowed := false }

def openFlow? (t : Token) : Option Layout := do
  let l ← l.noteKey?
  return { l.take t 1 true with depth := l.depth + 1 }

def closeFlow? (t : Token) : Option Layout := do
  if !l.inFlow then none
  let l ← l.dropKey?
  return { l.take t 1 false with depth := l.depth - 1 }

def takeComma? : Option Layout := do
  let l ← l.dropKey?
  return l.take .comma 1 true

def takeMark? (t opening : Token) (keyAllowed : Bool) : Option Layout := do
  if !l.inFlow && !l.keyAllowed then none
  let l ← (l.openBlock l.input.column opening).dropKey?
  return l.take t 1 keyAllowed

/-- A colon: what stands before it on the line is a key, or the key is empty. -/
def takeColon? : Option Layout :=
  match l.keys.lookup l.depth with
  | none => l.takeMark? .value .blockMapping (!l.inFlow)
  | some k =>
    let opens := l.opensAt k.column
    let opening := if opens then Opening.mapping else Opening.key
    let l := { l with
      keys := l.keys.filter (·.1 != l.depth)
      indents := if opens then k.column :: l.indents else l.indents
      slots := l.slots.modify k.slot fun (_, t) => (opening, t) }
    some (l.take .value 1 false)

def takeBlockScalar? (folded : Bool) : Option Layout := do
  let l ← l.dropKey?
  let (text, i) ← Scalar.block? folded l.indent l.input.next
  return { l.push (.scalar (String.ofList text) false) with input := i, keyAllowed := true }

def takeQuoted? (quote : Char) : Option Layout :=
  l.takeNode? <| (Scalar.quotedOrEmpty? quote l.input.next).map fun (text, i) =>
    (.scalar (String.ofList text) false, i)

def takePlain? : Option Layout :=
  let i := l.input
  let (text, ended, i) := Scalar.plain l.inFlow (l.indent + 1) (i.rest.length + 1) [] false i
  (l.takeNode? (some (.scalar (String.ofList text) true, i))).map fun l =>
    { l with keyAllowed := ended }

/-- Characters that cannot start a plain scalar, unless two of them have text after them. -/
def isIndicator (c : Char) : Bool :=
  isBreak c || isGap c || "-?:,[]\x7b\x7d#&*!|>'\"%@\x60".toList.contains c

def startsPlain (c : Char) : Bool :=
  !isIndicator c
    || (!endsWord (l.input.peekAt 1) && (c = '-' || (!l.inFlow && (c = '?' || c = ':'))))

def takeToken? (c : Char) : Option Layout :=
  let i := l.input
  let beforeGap := endsWord (i.peekAt 1)
  if c = '%' && i.column = 0 then l.takeDirective?
  else if i.column = 0 && i.isMarker '-' then l.takeDocumentMarker? .documentStart
  else if i.column = 0 && i.isMarker '.' then l.takeDocumentMarker? .documentEnd
  else if c = '[' then l.openFlow? .flowSequence
  else if c = '\x7b' then l.openFlow? .flowMapping
  else if c = ']' then l.closeFlow? .flowSequenceEnd
  else if c = '\x7d' then l.closeFlow? .flowMappingEnd
  else if c = ',' then l.takeComma?
  else if c = '-' && beforeGap then l.takeMark? .item .blockSequence true
  else if c = '?' && (l.inFlow || beforeGap) then l.takeMark? .key .blockMapping (!l.inFlow)
  else if c = ':' && (l.inFlow || beforeGap) then l.takeColon?
  else if c = '*' then l.takeNode? (i.takeAnchorName?.map fun (name, i) => (.reference name, i))
  else if c = '&' then l.takeNode? (i.takeAnchorName?.map fun (name, i) => (.anchor name, i))
  else if c = '!' then l.takeNode? i.takeTag?
  else if c = '|' && !l.inFlow then l.takeBlockScalar? false
  else if c = '>' && !l.inFlow then l.takeBlockScalar? true
  else if c = '\'' || c = '"' then l.takeQuoted? c
  else if l.startsPlain c then l.takePlain?
  else none

/-- Step over blanks, comments and line ends. A key may start on a new line, outside of flow
collections. -/
def skipGap : Nat → Layout → Layout
  | 0, l => l
  | fuel + 1, l =>
    let i := l.input.skipBlanks.skipComment
    match i.takeBreak? with
    | none => { l with input := i }
    | some (_, i) => skipGap fuel { l with input := i, keyAllowed := l.keyAllowed || !l.inFlow }

def finish? : Nat → Layout → Option Layout
  | 0, _ => none
  | fuel + 1, l => do
    let l ← (l.skipGap (l.input.rest.length + 1)).dropStale?
    let l := l.endBlocks (l.input.column < ·)
    match l.input.peek with
    | none => (l.endBlocks fun _ => true).dropKey?
    | some c => finish? fuel (← l.takeToken? c)

end Layout

def isAdmitted (c : Char) : Bool :=
  c == '\t' || c == '\n' || c == '\r' || c == '\x85' || (' ' ≤ c && c ≤ '~')
    || ('\xa0' ≤ c && c ≤ '\ud7ff') || ('\ue000' ≤ c && c ≤ '\ufffd') || 0x10000 ≤ c.toNat

def tokens? (cs : List Char) : Option (List Token) :=
  if cs.all isAdmitted then ((Layout.start cs).finish? (cs.length + 1)).map (·.tokens) else none

end Tablewright.Yaml
