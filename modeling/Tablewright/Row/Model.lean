import Tablewright.Row.Schema
import Tablewright.Rule.Stack

namespace Tablewright.Row

def float32Largest : Binary64 := .finite false ((Nat.pow 2 24 - 1) * Nat.pow 2 (104 + 1074))

def float32Smallest : Binary64 := .finite true ((Nat.pow 2 24 - 1) * Nat.pow 2 (104 + 1074))

def formatRange? : NumberFormat → Option (Number × Number)
  | .int32 => some (.int (-2147483648), .int 2147483647)
  | .uint32 => some (.int 0, .int 4294967295)
  | .safeint => some (.int (-9007199254740991), .int 9007199254740991)
  | .float32 => some (.float float32Smallest, .float float32Largest)
  | .number | .float64 => none

def tighter (pick : α → α → α) : Option α → Option α → Option α
  | some a, some b => some (pick a b)
  | some a, none => some a
  | none, b => b

/-- A limit of whole numbers: a double must be whole and within 64-bit words. -/
def wholeLimit? : Number → Option Int
  | .int n => some n
  | .float x =>
    match x.truncate? with
    | some n => if x.isWhole && n.natAbs < Nat.pow 2 63 then some n else none
    | none => none

def floatLimit? (n : Number) : Option Binary64 :=
  if n.toFloat.isFinite then some n.toFloat else none

def convert? (f : Number → Option α) (l : Limits Number) : Option (Limits α) := do
  let one : Option Number → Option (Option α)
    | some n => (f n).map some
    | none => some none
  return ⟨← one l.least, ← one l.most, ← one l.above, ← one l.below⟩

def numberLimits (r : NumberRule) : Limits Number :=
  let range := formatRange? r.format
  ⟨tighter Number.max (range.map (·.1)) r.minimum, tighter Number.min (range.map (·.2)) r.maximum,
    r.exclusiveMinimum, r.exclusiveMaximum⟩

def numberSchema? (r : NumberRule) : Option Schema :=
  if r.format.isInteger then (convert? wholeLimit? (numberLimits r)).map .int
  else (convert? floatLimit? (numberLimits r)).map .float

def textLimits (r : StringRule) : TextLimits :=
  ⟨tighter Nat.max r.minLength r.exactLength, tighter Nat.min r.maxLength r.exactLength,
    r.format.bind Pattern.ofFormat?⟩

/-- Lengths are held in 64-bit words. -/
def lengthLimit : Nat := Nat.pow 2 64

def TextLimits.fit (l : TextLimits) : Bool :=
  l.least.all (· < lengthLimit) && l.most.all (· < lengthLimit)

def textSchema? (l : TextLimits) : Option Schema := if l.fit then some (.text l) else none

def stringSchema? (r : StringRule) : Option Schema :=
  match r.format with
  | some .date => some .date
  | some .datetime => some .datetime
  | some .duration => some .duration
  | _ => textSchema? (textLimits r)

def distinctLiterals (seen : List Literal) : List Literal → List Literal
  | [] => []
  | v :: vs =>
    if seen.any (Schema.sameLiteral v) then distinctLiterals seen vs
    else v :: distinctLiterals (v :: seen) vs

/-- Listed values are shown when one of them is wanted, so each of them must have a text. -/
def listedSchema? (values : List Literal) : Option Schema :=
  if values.all (·.toValue.isWritable) then some (.listed (distinctLiterals [] values)) else none

def scalarSchema? : Scalar → Option Schema
  | .string r => stringSchema? r
  | .number r => numberSchema? r
  | .enum values => listedSchema? (values.map .text)
  | .literal values => listedSchema? values
  | .boolean => some .bool
  | .bigint => some (.int .none)
  | .null | .undefined => some .null
  | .blob => some .bytes
  | .any => some .any

/-- Whether an absent field stands for null: under an optional layer, or when it is undefined. -/
def mayBeAbsent : Rule → Bool
  | .layer _ .optional _ => true
  | .layer _ _ r => mayBeAbsent r
  | .scalar _ .undefined => true
  | _ => false

def absence (r : Rule) : Absence :=
  match r.stack.default with
  | some (_, some f) => .factory f
  | some (v, none) => .value v
  | none => if mayBeAbsent r then .value .null else .refused

mutual

/-- What a rule accepts, if its limits make sense. Objects below it take the given name. -/
def schema? (name : String) : Rule → Option Schema
  | .layer cs .optional r | .layer cs .nullable r =>
    (schema? name r).map fun s => s.orNull.refinedBy cs
  | .layer cs (.default ..) r => (schema? name r).map (·.refinedBy cs)
  | .scalar cs s => (scalarSchema? s).map (·.refinedBy cs)
  | .union cs rs => (schemas? name rs).map fun ss => (Schema.oneOf ss).refinedBy cs
  | .array cs r => (schema? (name ++ "Item") r).map fun s => (Schema.list s).refinedBy cs
  | .object cs shape =>
    (fields? name shape (fieldNames (shape.map (·.1)))).map fun fs =>
      (Schema.object name fs).refinedBy cs

def schemas? (name : String) : List Rule → Option (List Schema)
  | [] => some []
  | r :: rs =>
    match schema? name r, schemas? name rs with
    | some s, some ss => some (s :: ss)
    | _, _ => none

def fields? (model : String) : List (String × Rule) → List FieldName → Option (List (Head × Schema))
  | (column, r) :: rest, n :: ns =>
    match schema? (model ++ pascal column) r, fields? model rest ns with
    | some s, some fs => some ((⟨n, absence r⟩, s) :: fs)
    | _, _ => none
  | _, _ => some []

end

def insertField (f : Head × Schema) : List (Head × Schema) → List (Head × Schema)
  | [] => [f]
  | g :: fs =>
    if g.1.name.field = f.1.name.field then f :: fs else g :: insertField f fs

namespace Model

def nameOf (table suffix : String) : String := pascal table ++ suffix

def ofColumns? (name : String) (columns : List (String × Rule)) : Option Model :=
  (fields? name columns (fieldNames (columns.map (·.1)))).map fun fs =>
    ⟨name, fs.foldl (fun done f => insertField f done) []⟩

end Model

end Tablewright.Row
