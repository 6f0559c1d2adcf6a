import Tablewright.Function
import Tablewright.Value.Display

namespace Tablewright

inductive Json
  | null
  | bool (b : Bool)
  | int (n : Int)
  | float (x : Binary64)
  | text (s : String)
  | list (items : List Json)
  | object (fields : List (String × Json))
  deriving Inhabited

namespace Json

def escapeUnit (n : Nat) : List Char := '\\' :: 'u' :: Notation.hex 4 n

/-- A code point between quotes. What is not visible ASCII is escaped, a point beyond sixteen bits
as two code units; a point that is such a unit itself is written in the same way. -/
def escapePoint (n : Nat) : List Char :=
  if n = '"'.toNat || n = '\\'.toNat then ['\\', Char.ofNat n]
  else if n = '\n'.toNat then ['\\', 'n']
  else if n = '\r'.toNat then ['\\', 'r']
  else if n = '\t'.toNat then ['\\', 't']
  else if n = '\x08'.toNat then ['\\', 'b']
  else if n = '\x0c'.toNat then ['\\', 'f']
  else if 0x20 ≤ n && n ≤ 0x7e then [Char.ofNat n]
  else if n < 0x10000 then escapeUnit n
  else
    let m := n - 0x10000
    escapeUnit (0xd800 + m / 0x400) ++ escapeUnit (0xdc00 + m % 0x400)

def quotePoints (points : List Nat) : List Char := '"' :: points.flatMap escapePoint ++ ['"']

def quote (s : String) : List Char := quotePoints (s.toList.map Char.toNat)

def float64 : Binary64 → String
  | .nan => "NaN"
  | .infinity negative => if negative then "-Infinity" else "Infinity"
  | x => x.text

def commas (items : List (List Char)) : List Char := [',', ' '].intercalate items

mutual

def encode : Json → List Char
  | .null => "null".toList
  | .bool b => (if b then "true" else "false").toList
  | .int n => (numeral n).toList
  | .float x => (float64 x).toList
  | .text s => quote s
  | .list items => '[' :: commas (encodeItems items) ++ [']']
  | .object fields => '\x7b' :: commas (encodeFields fields) ++ ['\x7d']

def encodeItems : List Json → List (List Char)
  | [] => []
  | v :: vs => encode v :: encodeItems vs

def encodeFields : List (String × Json) → List (List Char)
  | [] => []
  | (k, v) :: fs => (quote k ++ ':' :: ' ' :: encode v) :: encodeFields fs

end

def ofInt (n : Int) : Except Fault Int := if hasNumeral n then .ok n else .error .tooManyDigits

def key : Value → Except Fault String
  | .text s => .ok s
  | .null => .ok "null"
  | .bool b => .ok (if b then "true" else "false")
  | .int n => (ofInt n).map numeral
  | .float x => .ok (float64 x)
  | _ => .error .mistyped

mutual

/-- A value with its dates, bytes and the like shown as text. A dictionary needs keys that can be
names. -/
def ofValue : Value → Except Fault Json
  | .null => .ok .null
  | .bool b => .ok (.bool b)
  | .int n => (ofInt n).map .int
  | .float x => .ok (.float x)
  | .text s => .ok (.text s)
  | .list xs | .tuple xs => (ofItems xs).map .list
  | .dict es => (ofEntries es).map .object
  | v => if v.isWritable then .ok (.text v.display) else .error .tooManyDigits

def ofItems : List Value → Except Fault (List Json)
  | [] => .ok []
  | v :: vs => do return (← ofValue v) :: (← ofItems vs)

def ofEntries : List (Value × Value) → Except Fault (List (String × Json))
  | [] => .ok []
  | (k, v) :: es => do return (← key k, ← ofValue v) :: (← ofEntries es)

end

end Json

end Tablewright
