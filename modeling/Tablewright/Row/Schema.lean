import Tablewright.Row.Name
import Tablewright.Row.Pattern
import Tablewright.Rule.Basic
import Tablewright.Value.Display

namespace Tablewright.Row

structure TextLimits where
  least : Option Nat
  most : Option Nat
  pattern : Option Pattern
  deriving DecidableEq, Repr, Inhabited

structure Limits (α : Type) where
  least : Option α
  most : Option α
  above : Option α
  below : Option α
  deriving DecidableEq, Repr, Inhabited

def TextLimits.none : TextLimits := ⟨.none, .none, .none⟩

def Limits.none : Limits α := ⟨.none, .none, .none, .none⟩

def Limits.isNone (l : Limits α) : Bool :=
  l.least.isNone && l.most.isNone && l.above.isNone && l.below.isNone

inductive Absence
  | refused
  | value (v : Value)
  | factory (f : Callable)
  deriving Inhabited

/-- The head of a field: its names, and what stands for it when it is absent. -/
structure Head where
  name : FieldName
  absence : Absence
  deriving Inhabited

inductive Schema
  | text (limits : TextLimits)
  | int (limits : Limits Int)
  | float (limits : Limits Binary64)
  | bool | bytes | date | datetime | duration | null | any
  | listed (values : List Literal)
  | nullable (inner : Schema)
  | union (options : List Schema)
  | list (items : Schema)
  | object (name : String) (fields : List (Head × Schema))
  | refined (inner : Schema) (condition : Refinement)
  deriving Inhabited

namespace Schema

def refinedBy (s : Schema) (checks : List Refinement) : Schema := checks.foldl .refined s

def orNull : Schema → Schema
  | .null => .null
  | .nullable s => .nullable s
  | s => .nullable s

@[simp]
theorem orNull_orNull (s : Schema) : s.orNull.orNull = s.orNull := by
  cases s <;> rfl

mutual

def label : Schema → String
  | .text l => if l = .none then "str" else "constrained-str"
  | .int l => if l.isNone then "int" else "constrained-int"
  | .float l => if l.isNone then "float" else "constrained-float"
  | .bool => "bool"
  | .bytes => "bytes"
  | .date => "date"
  | .datetime => "datetime"
  | .duration => "timedelta"
  | .null => "none"
  | .any => "any"
  | .listed vs => "literal[" ++ ",".intercalate (vs.map (·.toValue.written)) ++ "]"
  | .nullable s => "nullable[" ++ label s ++ "]"
  | .union ss => "union[" ++ ",".intercalate (labels ss) ++ "]"
  | .list s => "list[" ++ label s ++ "]"
  | .object name _ => name
  | .refined s _ => "function-after[check(), " ++ label s ++ "]"

def labels : List Schema → List String
  | [] => []
  | s :: ss => label s :: labels ss

end

def sameLimits (p : α → α → Bool) (a b : Limits α) : Bool :=
  let same : Option α → Option α → Bool
    | none, none => true
    | some x, some y => p x y
    | _, _ => false
  same a.least b.least && same a.most b.most && same a.above b.above && same a.below b.below

/-- Literals are alike when they have one type and one value. -/
def sameLiteral : Literal → Literal → Bool
  | .float x, .float y => (Number.float x).same (.float y)
  | a, b => a == b

def sameElements (p : α → α → Bool) (xs ys : List α) : Bool :=
  xs.all (fun x => ys.any (p x)) && ys.all fun y => xs.any (p y)

mutual

/-- Whether two options of a union are one. Objects and refined options are never alike. -/
def same : Schema → Schema → Bool
  | .text a, .text b => a == b
  | .int a, .int b => sameLimits (· == ·) a b
  | .float a, .float b => sameLimits (fun x y => (Number.float x).same (.float y)) a b
  | .bool, .bool | .bytes, .bytes | .date, .date | .datetime, .datetime => true
  | .duration, .duration | .null, .null | .any, .any => true
  | .listed vs, .listed ws => sameElements sameLiteral vs ws
  | .nullable a, .nullable b => same a b
  | .union as, .union bs => as.length = bs.length && sameOptions as bs
  | .list a, .list b => same a b
  | _, _ => false

def sameOptions : List Schema → List Schema → Bool
  | [], _ => true
  | a :: as, bs => bs.any (same a) && sameOptions as bs

end

def distinct (seen : List Schema) : List Schema → List Schema
  | [] => []
  | s :: ss => if seen.any (·.same s) then distinct seen ss else s :: distinct (s :: seen) ss

/-- The options that a schema brings into a union, and whether it brings null. -/
def spread : Schema → List Schema × Bool
  | .null => ([], true)
  | .nullable (.union ss) => (ss, true)
  | .nullable s => ([s], true)
  | .union ss => (ss, false)
  | s => ([s], false)

/-- One schema for several: unions within are spread, doubles dropped, and null is set apart. -/
def oneOf (schemas : List Schema) : Schema :=
  let options := distinct [] (schemas.flatMap (·.spread.1))
  let core : Schema := match options with
    | [] => .null
    | [s] => s
    | ss => .union ss
  if schemas.any (·.spread.2) then core.orNull else core

end Schema

structure Model where
  name : String
  fields : List (Head × Schema)
  deriving Inhabited

end Tablewright.Row
