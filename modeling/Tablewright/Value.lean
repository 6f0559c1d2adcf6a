import Tablewright.Temporal.Duration

namespace Tablewright

/-- A value that a definition, a default or a row can hold. A `member` stands for its value under
a name of its own, and a `record` is what an object rule makes of a dictionary, with the names of
the fields that were given. A `function` is no more than its slot, since what functions do is about
values. -/
inductive Value
  | null
  | bool (b : Bool)
  | int (n : Int)
  | float (x : Binary64)
  | text (s : String)
  | bytes (bs : List UInt8)
  | date (d : Date)
  | datetime (d : DateTime)
  | time (c : Clock)
  | duration (d : Duration)
  | decimal (d : Decimal)
  | member (v : Value)
  | list (xs : List Value)
  | tuple (xs : List Value)
  | set (xs : List Value)
  | dict (entries : List (Value × Value))
  | record (fields : List (String × Value)) (given : List String)
  | function (slot : Nat)
  deriving Inhabited

namespace Value

def number? : Value → Option Number
  | .bool b => some (.int (if b then 1 else 0))
  | .int n => some (.int n)
  | .float x => some (.float x)
  | _ => none

mutual

/-- Keys are the same when they denote the same number, or when they are alike in all parts. -/
def sameKey : Value → Value → Bool
  | .null, .null => true
  | .text s, .text t => s == t
  | .bytes bs, .bytes cs => bs == cs
  | .date d, .date e => d == e
  | .datetime d, .datetime e => d == e
  | .time c, .time d => c == d
  | .duration d, .duration e => d == e
  | .decimal d, .decimal e => d == e
  | .member v, .member w => sameKey v w
  | .tuple xs, .tuple ys => sameKeys xs ys
  | a, b =>
    match a.number?, b.number? with
    | some m, some n => m.same n
    | _, _ => false

def sameKeys : List Value → List Value → Bool
  | [], [] => true
  | x :: xs, y :: ys => sameKey x y && sameKeys xs ys
  | _, _ => false

end

def isNull : Value → Bool
  | .null => true
  | _ => false

theorem isNull_iff {v : Value} : v.isNull = true ↔ v = .null := by
  cases v <;> simp [isNull]

def isText (name : String) : Value → Bool
  | .text s => s == name
  | _ => false

def isKey : Value → Bool
  | .list _ | .dict _ | .set _ | .record .. => false
  | .tuple xs => allKeys xs
  | _ => true
where
  allKeys : List Value → Bool
    | [] => true
    | x :: xs => x.isKey && allKeys xs

/-- Set a key: an old entry keeps its place and its key, a new one comes last. -/
def insertKey (key value : Value) : List (Value × Value) → List (Value × Value)
  | [] => [(key, value)]
  | (k, v) :: rest =>
    if k.sameKey key then (k, value) :: rest else (k, v) :: insertKey key value rest

def ofPairs (pairs : List (Value × Value)) : Value :=
  .dict (pairs.foldl (fun entries (k, v) => insertKey k v entries) [])

def field? (entries : List (Value × Value)) (name : String) : Option Value :=
  (entries.find? (·.1.isText name)).map (·.2)

def isTruthy : Value → Bool
  | .null => false
  | .bool b => b
  | .int n => n ≠ 0
  | .float x => !x.isZero
  | .text s => !s.isEmpty
  | .bytes bs => !bs.isEmpty
  | .duration d => d.microseconds ≠ 0
  | .decimal d => !d.isZero
  | .list xs | .tuple xs | .set xs => !xs.isEmpty
  | .dict es => !es.isEmpty
  | .date _ | .datetime _ | .time _ | .member _ | .record .. | .function _ => true

def typeName : Value → String
  | .null => "NoneType"
  | .bool _ => "bool"
  | .int _ => "int"
  | .float _ => "float"
  | .text _ => "str"
  | .bytes _ => "bytes"
  | .date _ => "date"
  | .datetime _ => "datetime"
  | .time _ => "time"
  | .duration _ => "timedelta"
  | .decimal _ => "Decimal"
  | .list _ => "list"
  | .tuple _ => "tuple"
  | .set _ => "set"
  | .dict _ | .record .. => "dict"
  | .member _ => "Enum"
  | .function _ => "function"

end Value

end Tablewright
