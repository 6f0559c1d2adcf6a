import Tablewright.Rule.Reading

namespace Tablewright

def entry (name : String) (v : Value) : Value × Value := (.text name, v)

def orNothing (f : α → Value) : Option α → Value
  | some a => f a
  | none => .null

def Number.toValue : Number → Value
  | .int n => .int n
  | .float x => .float x

def Callable.toValue (c : Callable) : Value := .function c.slot

def Refinement.toValue (r : Refinement) : Value :=
  .dict [entry "predicate" r.condition.toValue, entry "message" (.text r.message)]

namespace Rule

def scalarEntries : Scalar → Entries
  | .string r =>
    [entry "format" (orNothing (.text ·.text) r.format),
      entry "min_length" (orNothing (fun n : Nat => .int n) r.minLength),
      entry "max_length" (orNothing (fun n : Nat => .int n) r.maxLength),
      entry "exact_length" (orNothing (fun n : Nat => .int n) r.exactLength)]
  | .number r =>
    [entry "format" (.text r.format.text), entry "minimum" (orNothing Number.toValue r.minimum),
      entry "maximum" (orNothing Number.toValue r.maximum),
      entry "exclusive_minimum" (orNothing Number.toValue r.exclusiveMinimum),
      entry "exclusive_maximum" (orNothing Number.toValue r.exclusiveMaximum)]
  | .enum values => [entry "values" (.list (values.map .text))]
  | .literal values => [entry "values" (.list (values.map Literal.toValue))]
  | .boolean | .bigint | .null | .undefined | .blob | .any => []

def nodeEntries (kind : Kind) (checks : List Refinement) (fields : Entries) : Entries :=
  entry "refinements" (.list (checks.map (·.toValue))) :: entry "kind" (.text kind.text) :: fields

def nodeValue (kind : Kind) (checks : List Refinement) (fields : Entries) : Value :=
  .dict (nodeEntries kind checks fields)

mutual

def toValue : Rule → Value
  | .layer cs .optional r => nodeValue .optional cs [entry "inner" r.toValue]
  | .layer cs .nullable r => nodeValue .nullable cs [entry "inner" r.toValue]
  | .layer cs (.default v f) r =>
    nodeValue .default cs
      [entry "inner" r.toValue, entry "value" v, entry "factory" (orNothing Callable.toValue f)]
  | .scalar cs s => nodeValue s.kind cs (scalarEntries s)
  | .union cs rs => nodeValue .union cs [entry "options" (.list (toValues rs))]
  | .array cs r => nodeValue .array cs [entry "items" r.toValue]
  | .object cs shape => nodeValue .object cs [entry "shape" (.dict (toEntries shape))]

def toValues : List Rule → List Value
  | [] => []
  | r :: rs => r.toValue :: toValues rs

def toEntries : List (String × Rule) → Entries
  | [] => []
  | (name, r) :: rest => entry name r.toValue :: toEntries rest

end

end Rule

end Tablewright
