import Tablewright.Rule.Document

namespace Tablewright

inductive BuildError
  | unknownName
  | wrongArguments
  | invalid (title : String) (issues : Issues)
  deriving Repr

abbrev Build := Except BuildError Rule

namespace Rule

def string (format : Option StringFormat) : Rule := .scalar [] (.string (.plain format))

def number (format : NumberFormat) : Rule := .scalar [] (.number (.plain format))

def optional (r : Rule) : Rule := .layer [] .optional r

def nullable (r : Rule) : Rule := .layer [] .nullable r

def refine (r : Rule) (refinement : Refinement) : Rule :=
  r.withChecks (r.checks ++ [refinement])

/-- The numeric or length bounds that a call can set. -/
inductive Bound
  | minLength | maxLength | exactLength
  | minimum | maximum | exclusiveMinimum | exclusiveMaximum
  deriving DecidableEq, Repr

def Bound.field : Bound → String
  | .minLength => "min_length"
  | .maxLength => "max_length"
  | .exactLength => "exact_length"
  | .minimum => "minimum"
  | .maximum => "maximum"
  | .exclusiveMinimum => "exclusive_minimum"
  | .exclusiveMaximum => "exclusive_maximum"

def titled (title : String) : Read α → Except BuildError α
  | .ok a => .ok a
  | .error issues => .error (.invalid title issues)

section

variable (fs : Functions)

/-- A function given as a default is called when a default is needed. -/
def withDefault (r : Rule) : Value → Rule
  | .function slot => .layer [] (.default .null (some (fs.callable slot))) r
  | v => .layer [] (.default v none) r

/-- A node that is read again from its fields, with another value for one of them. -/
def reread (checks : List Refinement) (s : Scalar) (field : String) (v : Value) : Read Rule :=
  readNode fs s.kind (Value.insertKey (.text field) v (nodeEntries s.kind checks (scalarEntries s)))

def setBound (r : Rule) (bound : Bound) (v : Value) : Build :=
  match r with
  | .scalar checks (.string s) => titled "StringRule" (reread fs checks (.string s) bound.field v)
  | .scalar checks (.number n) => titled "NumberRule" (reread fs checks (.number n) bound.field v)
  | _ => .error .unknownName

def setter? (r : Rule) (name : String) : Option Bound :=
  match r with
  | .scalar _ (.string _) =>
    [("min", .minLength), ("max", .maxLength), ("length", Bound.exactLength)].lookup name
  | .scalar _ (.number _) =>
    [("min", .minimum), ("max", .maximum), ("gt", .exclusiveMinimum),
      ("lt", Bound.exclusiveMaximum)].lookup name
  | _ => none

def shorthand? (r : Rule) (name : String) : Option Bound :=
  match r with
  | .scalar _ (.number _) =>
    [("positive", .exclusiveMinimum), ("nonnegative", Bound.minimum)].lookup name
  | _ => none

def refineWith (r : Rule) (condition message : Value) : Build :=
  titled "Refinement"
    ((Read.both Refinement.mk
      (Read.under (.key "predicate") (readCallable fs condition))
      (Read.under (.key "message") (Read.text message))).map r.refine)

def isAttribute (r : Rule) (name : String) : Bool :=
  (fieldNames r.kind ++ ["kind", "refinements"]).contains name
    || (r.kind = .string && name == "has_length_bounds")
    || (r.kind = .union && name == "is_literal_union")

def extend (r : Rule) (name : String) (arguments : List Value) : Build :=
  match name, arguments with
  | "optional", [] => .ok r.optional
  | "nullable", [] => .ok r.nullable
  | "array", [] => .ok (.array [] r)
  | "default", [v] => .ok (r.withDefault fs v)
  | "refine", [condition] => refineWith fs r condition (.text "Invalid value")
  | "refine", [condition, message] => refineWith fs r condition message
  | "optional", _ | "nullable", _ | "array", _ | "default", _ | "refine", _ =>
    .error .wrongArguments
  | _, _ =>
    match setter? r name, shorthand? r name, arguments with
    | some bound, _, [v] => setBound fs r bound v
    | none, some bound, [] => setBound fs r bound (.int 0)
    | none, none, _ => .error (if isAttribute r name then .wrongArguments else .unknownName)
    | _, _, _ => .error .wrongArguments

def iterate? : Value → Option (List Value)
  | .list xs | .tuple xs | .set xs => some xs
  | .text s => some (s.toList.map fun c => .text (String.ofList [c]))
  | .bytes bs => some (bs.map fun b => .int b.toNat)
  | .dict es => some (es.map (·.1))
  | _ => none

def node (title : String) (kind : Kind) (field : String) (v : Value) : Build :=
  titled title (readNode fs kind [(.text field, v)])

def ofItems (title : String) (kind : Kind) (field : String) (v : Value) : Build :=
  match iterate? v with
  | some items => node fs title kind field (.tuple items)
  | none => .error .wrongArguments

def plain : List (String × Rule) :=
  [("string", string none), ("email", string (some .email)), ("url", string (some .url)),
    ("uuid", string (some .uuid)), ("iso_date", string (some .date)),
    ("iso_datetime", string (some .datetime)), ("iso_duration", string (some .duration)),
    ("number", number .number), ("integer", number .safeint), ("int32", number .int32),
    ("uint32", number .uint32), ("float32", number .float32), ("float64", number .float64),
    ("boolean", .scalar [] .boolean), ("bigint", .scalar [] .bigint),
    ("null", .scalar [] .null), ("undefined", .scalar [] .undefined),
    ("blob", .scalar [] .blob), ("any_", .scalar [] .any)]

def start (name : String) (arguments : List Value) : Build :=
  match plain.lookup name with
  | some r => if arguments.isEmpty then .ok r else .error .wrongArguments
  | none =>
    match name, arguments with
    | "enum", [v] => ofItems fs "EnumRule" .enum "values" v
    | "literal", vs => node fs "LiteralRule" .literal "values" (.tuple vs)
    | "union", [v] => ofItems fs "UnionRule" .union "options" v
    | "array", [v] => node fs "ArrayRule" .array "items" v
    | "object_", [v] => node fs "ObjectRule" .object "shape" v
    | "enum", _ | "union", _ | "array", _ | "object_", _ => .error .wrongArguments
    | _, _ => .error .unknownName

def call (current : Option Rule) (name : String) (arguments : List Value) : Build :=
  match current with
  | some r => r.extend fs name arguments
  | none => start fs name arguments

end

end Rule

end Tablewright
