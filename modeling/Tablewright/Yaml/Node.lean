import Tablewright.Yaml.Layout
import Tablewright.Yaml.Tag

namespace Tablewright.Yaml

/-- The tree that a document denotes. `enclosing` stands for a collection inside itself. -/
inductive Node
  | scalar (tag : Tag) (text : String)
  | sequence (tag : Tag) (items : List Node)
  | mapping (tag : Tag) (entries : List (Node × Node))
  | enclosing
  deriving Inhabited

namespace Node

def tag? : Node → Option Tag
  | scalar t _ | sequence t _ | mapping t _ => some t
  | enclosing => none

def empty : Node := .scalar .null ""

/-- The tokens that are left, the anchors so far with their nodes, which the open collections do
not have yet, and what the handles of tags stand for. -/
structure Reader where
  tokens : List Token
  anchors : List (String × Option Node)
  handles : List (String × String)

abbrev Reading := StateT Reader Option

def peek : Reading (Option Token) := return (← get).tokens.head?

def skip : Reading Unit := modify fun r => { r with tokens := r.tokens.tail }

def take (t : Token) : Reading Bool := do
  if (← peek) == some t then
    skip
    return true
  else return false

def expect (t : Token) : Reading Unit := do
  if !(← take t) then failure

def isNext (ts : List Token) : Reading Bool := return (← peek).any ts.contains

/-! ### Properties -/

def anchor? : Reading (Option String) := do
  match ← peek with
  | some (.anchor name) =>
    skip
    return some name
  | _ => return none

def tagName? : Reading (Option String) := do
  match ← peek with
  | some (.tag handle suffix) =>
    skip
    match handle with
    | none => return some suffix
    | some handle =>
      let some expansion := (← get).handles.lookup handle | failure
      return some (expansion ++ suffix)
  | _ => return none

def properties : Reading (Option String × Option String) := do
  match ← anchor? with
  | some name => return (some name, ← tagName?)
  | none =>
    let name ← tagName?
    return (← anchor?, name)

def isOpen (name : Option String) : Bool := name.isNone || name == some "!"

def tagOr (default : Tag) (name : Option String) : Tag :=
  if isOpen name then default else (name.map Tag.ofName).getD default

def mark (anchor : Option String) (node : Option Node) : Reading Unit :=
  match anchor with
  | none => return
  | some name => modify fun r => { r with anchors := (name, node) :: r.anchors }

def anchored (anchor : Option String) (node : Reading Node) : Reading Node := do
  let known := (← get).anchors
  if anchor.any fun name => (known.lookup name).isSome then failure
  mark anchor none
  let n ← node
  mark anchor (some n)
  return n

def referred (name : String) : Reading Node := do
  match (← get).anchors.lookup name with
  | none => failure
  | some node => return node.getD .enclosing

/-! ### Collections -/

/-- How to read a node inside a collection: in a block or not, and whether its items may stand in
the column of the block. -/
abbrev NodeReading := (inBlock hangs : Bool) → Reading Node

variable (node : NodeReading)

def nodeBefore (ends : List Token) (inBlock hangs : Bool) : Reading Node := do
  if ← isNext ends then return .empty else node inBlock hangs

def nodeAfter (t : Token) (ends : List Token) (inBlock hangs : Bool) : Reading Node := do
  if ← take t then nodeBefore node ends inBlock hangs else return .empty

def blockItems (ends : List Token) : Nat → Reading (List Node)
  | 0 => failure
  | fuel + 1 => do
    if ← take .item then
      let n ← nodeBefore node ends true false
      return n :: (← blockItems ends fuel)
    else return []

def blockEntries : Nat → Reading (List (Node × Node))
  | 0 => failure
  | fuel + 1 => do
    if ← take .key then
      let ends := [Token.key, .value, .blockEnd]
      let k ← nodeBefore node ends true true
      let v ← nodeAfter node .value ends true true
      return (k, v) :: (← blockEntries fuel)
    else return []

def flowItems (isFirst : Bool) : Nat → Reading (List Node)
  | 0 => failure
  | fuel + 1 => do
    if ← take .flowSequenceEnd then return []
    if !isFirst then expect .comma
    if ← take .key then
      let k ← nodeBefore node [.value, .comma, .flowSequenceEnd] false false
      let v ← nodeAfter node .value [.comma, .flowSequenceEnd] false false
      return .mapping .mapping [(k, v)] :: (← flowItems false fuel)
    else if ← take .flowSequenceEnd then return []
    else
      let n ← node false false
      return n :: (← flowItems false fuel)

def flowEntries (isFirst : Bool) : Nat → Reading (List (Node × Node))
  | 0 => failure
  | fuel + 1 => do
    if ← take .flowMappingEnd then return []
    if !isFirst then expect .comma
    if ← take .key then
      let k ← nodeBefore node [.value, .comma, .flowMappingEnd] false false
      let v ← nodeAfter node .value [.comma, .flowMappingEnd] false false
      return (k, v) :: (← flowEntries false fuel)
    else if ← take .flowMappingEnd then return []
    else
      let k ← node false false
      return (k, .empty) :: (← flowEntries false fuel)

def content (fuel : Nat) (inBlock hangs hasProperties : Bool) (name : Option String) :
    Reading Node := do
  let sequence (items : Reading (List Node)) : Reading Node := do
    return .sequence (tagOr .sequence name) (← items)
  let mapping (entries : Reading (List (Node × Node))) : Reading Node := do
    return .mapping (tagOr .mapping name) (← entries)
  if hangs && (← isNext [.item]) then
    sequence (blockItems node [.item, .key, .value, .blockEnd] fuel)
  else match ← peek, inBlock with
    | some (.scalar text isPlain), _ =>
      skip
      let plainType := isPlain || name == some "!"
      return .scalar (tagOr (if plainType then .ofPlain text else .text) name) text
    | some .flowSequence, _ =>
      skip
      sequence (flowItems node true fuel)
    | some .flowMapping, _ =>
      skip
      mapping (flowEntries node true fuel)
    | some .blockSequence, true =>
      skip
      sequence do
        let items ← blockItems node [.item, .blockEnd] fuel
        expect .blockEnd
        return items
    | some .blockMapping, true =>
      skip
      mapping do
        let entries ← blockEntries node fuel
        expect .blockEnd
        return entries
    | _, _ => if hasProperties then return .scalar (tagOr .null name) "" else failure

/-! ### Documents -/

def read : Nat → NodeReading
  | 0, _, _ => failure
  | depth + 1, inBlock, hangs => do
    match ← peek with
    | some (.reference name) =>
      skip
      referred name
    | _ =>
      let (anchor, name) ← properties
      let fuel := (← get).tokens.length + 1
      anchored anchor
        (content (read depth) fuel inBlock hangs (anchor.isSome || name.isSome) name)

/-- The directives in front of a document: whether the version has been given, and the handles. -/
def handles? : Bool → List (String × String) → List Token →
    Option (List (String × String) × List Token)
  | versionSeen, handles, .directive d :: ts =>
    match d with
    | .version major =>
      if versionSeen || major ≠ 1 then none else handles? true handles ts
    | .handle name expansion =>
      if (handles.lookup name).isSome then none
      else handles? versionSeen ((name, expansion) :: handles) ts
    | .other => handles? versionSeen handles ts
  | _, handles, ts => some (handles, ts)

def knownHandles : List (String × String) := [("!", "!"), ("!!", Tag.space)]

def ofTokens? : List Token → Option (Option Node)
  | [] => some none
  | t :: ts => do
    let isMarked := match t with
      | .directive _ | .documentStart => true
      | _ => false
    let (handles, ts) ←
      if isMarked then
        match ← handles? false [] (t :: ts) with
        | (handles, .documentStart :: ts) => some (handles, ts)
        | _ => none
      else some ([], t :: ts)
    let isEmpty := isMarked && match ts with
      | [] | .directive _ :: _ | .documentStart :: _ | .documentEnd :: _ => true
      | _ => false
    let reader : Reader := ⟨ts, [], handles ++ knownHandles⟩
    let (node, rest) ←
      if isEmpty then some (.empty, reader) else (read (ts.length + 1) true false).run reader
    if rest.tokens.all (· == .documentEnd) then return some node else none

def ofText? (cs : List Char) : Option (Option Node) := (tokens? cs).bind ofTokens?

end Node

end Tablewright.Yaml
