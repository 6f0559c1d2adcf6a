import Tablewright.Yaml.Scalar

namespace Tablewright.Yaml

/-- A line in front of a document that speaks about the document. -/
inductive Directive
  | version (major : Nat)
  | handle (name expansion : String)
  | other
  deriving DecidableEq, Repr

/-- The parts of a text. Blocks have no marks of their own: their starts and ends, and the keys of
their mappings, follow from the layout. -/
inductive Token
  | directive (d : Directive)
  | documentStart | documentEnd
  | blockSequence | blockMapping | blockEnd
  | flowSequence | flowSequenceEnd | flowMapping | flowMappingEnd
  | item | comma | key | value
  | reference (name : String)
  | anchor (name : String)
  | tag (handle : Option String) (suffix : String)
  | scalar (text : String) (isPlain : Bool)
  deriving DecidableEq, Repr

namespace Input

def isNameChar (c : Char) : Bool := c.isAlphanum || c == '-' || c == '_'

def takeName? (i : Input) : Option (String × Input) :=
  match i.span isNameChar with
  | ([], _) => none
  | (cs, i) => some (String.ofList cs, i)

def takeNumber? (i : Input) : Option (Nat × Input) :=
  match i.span Char.isDigit with
  | ([], _) => none
  | (cs, i) => some (cs.foldl (fun n c => 10 * n + (c.toNat - '0'.toNat)) 0, i)

/-! ### Tags -/

def takeEscapes? : Nat → Input → Option (List UInt8 × Input)
  | 0, i => some ([], i)
  | fuel + 1, i =>
    if i.isAt '%' then do
      let byte ← Scalar.hexNumber? i.next.rest 2
      let (bytes, i) ← takeEscapes? fuel (i.skip 3)
      return (byte.toUInt8 :: bytes, i)
    else some ([], i)

def isTagChar (c : Char) : Bool :=
  c.isAlphanum || "-;/?:@&=+$,_.!~*'()[]".toList.contains c

/-- The characters of a tag, with escapes of those that may not stand for themselves. -/
def takeTagChars? : Nat → Input → Option (List Char × Input)
  | 0, i => some ([], i)
  | fuel + 1, i =>
    let (cs, i) := i.span isTagChar
    if i.isAt '%' then do
      let (bytes, i) ← takeEscapes? (i.rest.length + 1) i
      let text ← String.fromUTF8? ⟨bytes.toArray⟩
      let (more, i) ← takeTagChars? fuel i
      return (cs ++ text.toList ++ more, i)
    else some (cs, i)

def takeTagText? (i : Input) : Option (String × Input) :=
  match takeTagChars? (i.rest.length + 1) i with
  | some (c :: cs, i) => some (String.ofList (c :: cs), i)
  | _ => none

def takeHandle? (i : Input) : Option (String × Input) :=
  if !i.isAt '!' then none
  else if i.next.isAt ' ' then some ("!", i.next)
  else
    let (cs, i) := i.next.span isNameChar
    if i.isAt '!' then some (String.ofList ('!' :: cs ++ ['!']), i.next) else none

def hasHandle (cs : List Char) : Bool := (cs.takeWhile fun c => !endsItem (some c)).contains '!'

/-- A tag, after its mark: one in angle brackets is complete, one with no text is left open. -/
def takeTag? (i : Input) : Option (Token × Input) := do
  let (token, i) ←
    if i.next.isAt '<' then do
      let (suffix, i) ← (i.skip 2).takeTagText?
      if i.isAt '>' then some (Token.tag none suffix, i.next) else none
    else if endsWord i.next.peek then some (Token.tag none "!", i.next)
    else do
      let (handle, i) ← if hasHandle i.next.rest then i.takeHandle? else some ("!", i.next)
      let (suffix, i) ← i.takeTagText?
      return (Token.tag (some handle) suffix, i)
  if endsItem i.peek then some (token, i) else none

def takeAnchorName? (i : Input) : Option (String × Input) := do
  let (name, i) ← i.next.takeName?
  if endsWord i.peek || i.peek.any ("?:,]\x7d%@\x60".toList.contains ·) then some (name, i)
  else none

/-! ### Directives -/

def takeVersion? (i : Input) : Option (Directive × Input) := do
  let (major, i) ← i.skipBlanks.takeNumber?
  if !i.isAt '.' then none
  let (_, i) ← i.next.takeNumber?
  if endsItem i.peek then some (.version major, i) else none

def takeHandleDirective? (i : Input) : Option (Directive × Input) := do
  let (name, i) ← i.skipBlanks.takeHandle?
  if !i.isAt ' ' then none
  let (expansion, i) ← i.skipBlanks.takeTagText?
  if endsItem i.peek then some (.handle name expansion, i) else none

def takeDirective? (i : Input) : Option (Directive × Input) := do
  let (name, i) ← i.next.takeName?
  if !endsItem i.peek then none
  let (directive, i) ←
    if name = "YAML" then i.takeVersion?
    else if name = "TAG" then i.takeHandleDirective?
    else some (.other, i.skipWhile (!isBreak ·))
  return (directive, ← i.endLine?)

end Input

end Tablewright.Yaml
