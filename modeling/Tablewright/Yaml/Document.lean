import Tablewright.Numeric.Reading
import Tablewright.Text.Base64
import Tablewright.Value
import Tablewright.Yaml.Node

namespace Tablewright.Yaml

/-- Why a document has no value. Most faults are alike: what is written is no document, or holds
something that has no meaning under its tag. A truth value of another name, a number without a
character and a timestamp of another form are told apart. -/
inductive Fault
  | malformed
  | unknownTruth (name : String)
  | emptyNumber
  | notATimestamp
  deriving DecidableEq, Repr

abbrev Result := Except Fault

def orMalformed (x : Option α) : Result α :=
  match x with
  | some a => .ok a
  | none => .error .malformed

/-! ### Numbers -/

def digitIn? (radix : Nat) (c : Char) : Option Nat :=
  ((digitValue? c).or (Scalar.hexValue? c)).filter (· < radix)

/-- A whole number with an optional sign. The letter that names its radix may stand after a zero. -/
def readRadix? (radix : Nat) (letter : Char) (cs : List Char) : Option Int :=
  let (negative, body) := takeSign (trimBy isBlank cs)
  let body := match body with
    | '0' :: c :: more => if c.toLower = letter then more else body
    | _ => body
  if body.isEmpty then none
  else do
    let ds ← body.mapM (digitIn? radix)
    return withSign negative (ds.foldl (fun n d => radix * n + d) 0)

def readDecimal? (cs : List Char) : Option Int := readInt? digitValue? (trimBy isBlank cs)

def ofSixtieths (parts : List Int) : Int := parts.foldl (fun n d => 60 * n + d) 0

def readMagnitude? : List Char → Option Int
  | '0' :: 'b' :: cs => readRadix? 2 'b' cs
  | '0' :: 'x' :: cs => readRadix? 16 'x' cs
  | '0' :: cs => readRadix? 8 'o' ('0' :: cs)
  | cs =>
    if cs.contains ':' then ((Tag.colonParts cs).mapM readDecimal?).map ofSixtieths
    else readDecimal? cs

def splitNumber (s : String) : Result (Bool × List Char) :=
  match s.toList.filter (· != '_') with
  | [] => .error .emptyNumber
  | cs => .ok (takeSign cs)

def intValue (s : String) : Result Value := do
  let (negative, cs) ← splitNumber s
  if cs.isEmpty then throw .emptyNumber
  let n ← orMalformed (readMagnitude? cs)
  return .int (if negative then -n else n)

def readReal? (cs : List Char) : Option Binary64 := readFloat? digitValue? (trimBy isBlank cs)

def ofRealSixtieths (parts : List Binary64) : Binary64 :=
  (parts.reverse.foldl (fun (sum, base) x => (sum.plus (x.times base), 60 * base))
    (.finite false 0, 1)).1

def floatValue (s : String) : Result Value := do
  let (negative, cs) ← splitNumber s
  let x ← match String.ofList (cs.map Char.toLower) with
    | ".inf" => pure (.infinity false)
    | ".nan" => pure .nan
    | _ => orMalformed <|
      if cs.contains ':' then ((Tag.colonParts cs).mapM readReal?).map ofRealSixtieths
      else readReal? cs
  return .float (if negative then x.negate else x)

/-! ### Values -/

def boolValue (s : String) : Result Value :=
  let name := String.ofList (s.toList.map Char.toLower)
  if ["yes", "true", "on"].contains name then .ok (.bool true)
  else if ["no", "false", "off"].contains name then .ok (.bool false)
  else .error (.unknownTruth name)

def timestampValue (s : String) : Result Value :=
  match Timestamp.ofText? s.toList with
  | none => .error .notATimestamp
  | some t =>
    if !t.isValid then .error .malformed
    else match t.clock with
      | none => .ok (.date t.date)
      | some clock => .ok (.datetime ⟨t.date, clock⟩)

def scalarValue (tag : Tag) (s : String) : Result Value :=
  match tag with
  | .null => .ok .null
  | .bool => boolValue s
  | .int => intValue s
  | .float => floatValue s
  | .timestamp => timestampValue s
  | .text => .ok (.text s)
  | .binary => orMalformed ((Base64.decode? s).map .bytes)
  | .sequence | .mapping | .set | .orderedPairs | .pairs | .merge | .value | .unknown =>
    .error .malformed

def keyValue (v : Value) : Result Value := if v.isKey then .ok v else .error .malformed

namespace Node

mutual

def text? : Node → Option String
  | .scalar _ s => some s
  | .mapping _ entries => textUnderValue? entries
  | .sequence _ _ | .enclosing => none

def textUnderValue? : List (Node × Node) → Option String
  | [] => none
  | (k, v) :: rest => if k.tag? = some .value then text? v else textUnderValue? rest

end

mutual

def value : Node → Result Value
  | .enclosing => .ok .null
  | .scalar tag s => scalarValue tag s
  | .sequence tag items =>
    match tag with
    | .sequence => do return .list (← values items)
    | .orderedPairs | .pairs => do return .list (← pairValues items)
    | _ => .error .malformed
  | .mapping tag entries =>
    match tag with
    | .mapping => do return .ofPairs ((← mergedEntries entries) ++ (← ownEntries entries))
    | .set => do
      let pairs := (← mergedEntries entries) ++ (← ownEntries entries)
      return .set ((pairs.foldl (fun es (k, v) => Value.insertKey k v es) []).map (·.1))
    | .sequence | .orderedPairs | .pairs => .error .malformed
    | tag => do scalarValue tag (← orMalformed (textUnderValue? entries))

def values : List Node → Result (List Value)
  | [] => .ok []
  | n :: ns => do return (← value n) :: (← values ns)

def pairValues : List Node → Result (List Value)
  | [] => .ok []
  | .mapping _ [(k, v)] :: ns => do
    return .tuple [← value k, ← value v] :: (← pairValues ns)
  | _ => .error .malformed

/-- The entries of a mapping that are not merged into it. The value key is a text here. -/
def ownEntries : List (Node × Node) → Result (List (Value × Value))
  | [] => .ok []
  | (k, v) :: rest => do
    if k.tag? = some .merge then ownEntries rest
    else
      let key ← match k with
        | .scalar .value s => pure (.text s)
        | .enclosing => throw .malformed
        | k => do keyValue (← value k)
      return (key, ← value v) :: (← ownEntries rest)

def mergedEntries : List (Node × Node) → Result (List (Value × Value))
  | [] => .ok []
  | (k, v) :: rest => do
    if k.tag? = some .merge then return (← mergeable v) ++ (← mergedEntries rest)
    else mergedEntries rest

/-- The entries of a mapping, or of a sequence of mappings with the last one first. -/
def mergeable : Node → Result (List (Value × Value))
  | .mapping _ entries => do return (← mergedEntries entries) ++ (← ownEntries entries)
  | .sequence _ items => mergeableItems items
  | .enclosing => .ok []
  | .scalar _ _ => .error .malformed

def mergeableItems : List Node → Result (List (Value × Value))
  | [] => .ok []
  | .mapping _ entries :: ns => do
    return (← mergeableItems ns) ++ ((← mergedEntries entries) ++ (← ownEntries entries))
  | _ => .error .malformed

end

end Node

def read (cs : List Char) : Result Value := do
  match ← orMalformed (Node.ofText? cs) with
  | none => return .null
  | some node => node.value

end Tablewright.Yaml
