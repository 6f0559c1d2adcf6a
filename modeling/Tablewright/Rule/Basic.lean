import Tablewright.Function

namespace Tablewright

inductive StringFormat
  | email | url | uuid | date | datetime | duration
  deriving DecidableEq, Repr, Inhabited

namespace StringFormat

def all : List StringFormat := [.email, .url, .uuid, .date, .datetime, .duration]

def text : StringFormat → String
  | .email => "email"
  | .url => "url"
  | .uuid => "uuid"
  | .date => "date"
  | .datetime => "datetime"
  | .duration => "duration"

def ofText? (s : String) : Option StringFormat := all.find? (·.text == s)

@[simp]
theorem ofText?_text (f : StringFormat) : ofText? f.text = some f := by
  cases f <;> decide +kernel

def isTemporal : StringFormat → Bool
  | .date | .datetime | .duration => true
  | .email | .url | .uuid => false

end StringFormat

inductive NumberFormat
  | number | int32 | uint32 | safeint | float32 | float64
  deriving DecidableEq, Repr, Inhabited

namespace NumberFormat

def all : List NumberFormat := [.number, .int32, .uint32, .safeint, .float32, .float64]

def text : NumberFormat → String
  | .number => "number"
  | .int32 => "int32"
  | .uint32 => "uint32"
  | .safeint => "safeint"
  | .float32 => "float32"
  | .float64 => "float64"

def ofText? (s : String) : Option NumberFormat := all.find? (·.text == s)

@[simp]
theorem ofText?_text (f : NumberFormat) : ofText? f.text = some f := by
  cases f <;> decide +kernel

def isInteger : NumberFormat → Bool
  | .int32 | .uint32 | .safeint => true
  | .number | .float32 | .float64 => false

end NumberFormat

/-- A condition on accepted values, and what to say when it does not hold. -/
structure Refinement where
  condition : Callable
  message : String
  deriving Inhabited

structure StringRule where
  format : Option StringFormat
  minLength : Option Nat
  maxLength : Option Nat
  exactLength : Option Nat
  deriving DecidableEq, Repr, Inhabited

namespace StringRule

def plain (format : Option StringFormat) : StringRule := ⟨format, none, none, none⟩

def hasLengthBounds (r : StringRule) : Bool :=
  r.minLength.isSome || r.maxLength.isSome || r.exactLength.isSome

def isTemporal (r : StringRule) : Bool := r.format.any StringFormat.isTemporal

end StringRule

structure NumberRule where
  format : NumberFormat
  minimum : Option Number
  maximum : Option Number
  exclusiveMinimum : Option Number
  exclusiveMaximum : Option Number
  deriving DecidableEq, Repr, Inhabited

def NumberRule.plain (format : NumberFormat) : NumberRule := ⟨format, none, none, none, none⟩

inductive Literal
  | null
  | bool (b : Bool)
  | int (n : Int)
  | float (x : Binary64)
  | text (s : String)
  deriving DecidableEq, Repr, Inhabited

def Literal.toValue : Literal → Value
  | .null => .null
  | .bool b => .bool b
  | .int n => .int n
  | .float x => .float x
  | .text s => .text s

inductive Scalar
  | string (r : StringRule)
  | number (r : NumberRule)
  | enum (values : List String)
  | literal (values : List Literal)
  | boolean
  | bigint
  | null
  | undefined
  | blob
  | any
  deriving DecidableEq, Repr, Inhabited

/-- What can be wrapped around a rule. A default is a value, or what a factory supplies. -/
inductive Layer
  | optional
  | nullable
  | default (value : Value) (factory : Option Callable)
  deriving Inhabited

/-- The rule of a column: layers around one leaf, with rules below the leaf when it is a union, an
array or an object. Every node carries its own refinements. -/
inductive Rule
  | layer (checks : List Refinement) (layer : Layer) (inner : Rule)
  | scalar (checks : List Refinement) (scalar : Scalar)
  | union (checks : List Refinement) (options : List Rule)
  | array (checks : List Refinement) (items : Rule)
  | object (checks : List Refinement) (shape : List (String × Rule))
  deriving Inhabited

/-- The words that tell the nodes of a rule apart. -/
inductive Kind
  | optional | nullable | default
  | string | number | enum | literal | union | array | object
  | boolean | bigint | null | undefined | blob | any
  deriving DecidableEq, Repr, Inhabited

namespace Kind

def all : List Kind :=
  [.optional, .nullable, .default, .string, .number, .enum, .literal, .union, .array, .object,
    .boolean, .bigint, .null, .undefined, .blob, .any]

def text : Kind → String
  | .optional => "optional"
  | .nullable => "nullable"
  | .default => "default"
  | .string => "string"
  | .number => "number"
  | .enum => "enum"
  | .literal => "literal"
  | .union => "union"
  | .array => "array"
  | .object => "object"
  | .boolean => "boolean"
  | .bigint => "bigint"
  | .null => "null"
  | .undefined => "undefined"
  | .blob => "blob"
  | .any => "any"

def ofText? (s : String) : Option Kind := all.find? (·.text == s)

@[simp]
theorem ofText?_text (k : Kind) : ofText? k.text = some k := by
  cases k <;> decide +kernel

end Kind

def Layer.kind : Layer → Kind
  | .optional => .optional
  | .nullable => .nullable
  | .default .. => .default

def Scalar.kind : Scalar → Kind
  | .string _ => .string
  | .number _ => .number
  | .enum _ => .enum
  | .literal _ => .literal
  | .boolean => .boolean
  | .bigint => .bigint
  | .null => .null
  | .undefined => .undefined
  | .blob => .blob
  | .any => .any

namespace Rule

def kind : Rule → Kind
  | .layer _ l _ => l.kind
  | .scalar _ s => s.kind
  | .union .. => .union
  | .array .. => .array
  | .object .. => .object

def checks : Rule → List Refinement
  | .layer cs _ _ | .scalar cs _ | .union cs _ | .array cs _ | .object cs _ => cs

def withChecks (checks : List Refinement) : Rule → Rule
  | .layer _ l r => .layer checks l r
  | .scalar _ s => .scalar checks s
  | .union _ rs => .union checks rs
  | .array _ r => .array checks r
  | .object _ fs => .object checks fs

def leaf : Rule → Rule
  | .layer _ _ r => r.leaf
  | r => r

def areLiterals (options : List Rule) : Bool :=
  options.all fun
    | .scalar _ (.literal _) => true
    | _ => false

def literalValues (options : List Rule) : List Literal :=
  options.flatMap fun
    | .scalar _ (.literal vs) => vs
    | _ => []

end Rule

end Tablewright
