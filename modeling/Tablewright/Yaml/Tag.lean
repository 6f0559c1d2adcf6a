import Tablewright.Yaml.Timestamp

namespace Tablewright.Yaml

inductive Tag
  | null | bool | int | float | timestamp | text | binary
  | sequence | mapping | set | orderedPairs | pairs
  | merge | value | unknown
  deriving DecidableEq, Repr

namespace Tag

def space : String := "tag:yaml.org,2002:"

def ofName (name : String) : Tag :=
  match [("null", null), ("bool", bool), ("int", int), ("float", float), ("timestamp", timestamp),
    ("str", text), ("binary", binary), ("seq", sequence), ("map", mapping), ("set", set),
    ("omap", orderedPairs), ("pairs", pairs), ("merge", merge), ("value", Tag.value)].find?
      (space ++ ·.1 = name) with
  | some (_, tag) => tag
  | none => unknown

/-! ### Plain scalars -/

def isOctal (c : Char) : Bool := '0' ≤ c && c ≤ '7'

def isHex (c : Char) : Bool := c.isDigit || ('a' ≤ c && c ≤ 'f') || ('A' ≤ c && c ≤ 'F')

def allDigits (digit : Char → Bool) (cs : List Char) : Bool :=
  !cs.isEmpty && cs.all fun c => digit c || c == '_'

def isNumeral (cs : List Char) : Bool := cs.head?.any Char.isDigit && allDigits Char.isDigit cs

def dropSign : List Char → List Char
  | '-' :: cs | '+' :: cs => cs
  | cs => cs

def isSixtieth : List Char → Bool
  | [d] => d.isDigit
  | [t, d] => '0' ≤ t && t ≤ '5' && d.isDigit
  | _ => false

def colonParts (cs : List Char) : List (List Char) := cs.splitOn ':'

def isSexagesimal (cs : List Char) : Bool :=
  match colonParts cs with
  | whole :: part :: parts => isNumeral whole && (part :: parts).all isSixtieth
  | _ => false

def isInteger (cs : List Char) : Bool :=
  match dropSign cs with
  | '0' :: 'b' :: cs => allDigits (fun c => c == '0' || c == '1') cs
  | '0' :: 'x' :: cs => allDigits isHex cs
  | '0' :: cs => cs.isEmpty || allDigits isOctal cs
  | cs => allDigits Char.isDigit cs && isNumeral cs || isSexagesimal cs

def isExponent : List Char → Bool
  | [] => true
  | e :: sign :: ds =>
    (e == 'e' || e == 'E') && (sign == '-' || sign == '+') && !ds.isEmpty && ds.all Char.isDigit
  | _ => false

def isDigitOrGap (c : Char) : Bool := c.isDigit || c == '_'

def isFraction (more : List Char → Bool) : List Char → Bool
  | '.' :: cs => more (cs.dropWhile isDigitOrGap)
  | _ => false

def isReal (cs : List Char) : Bool :=
  let (whole, rest) := (dropSign cs).span isDigitOrGap
  let (count, after) := (dropSign cs).span (· != '.')
  (isNumeral whole && isFraction isExponent rest)
    || (cs.head? == some '.' && cs.tail.head?.any Char.isDigit && isFraction isExponent cs)
    || (isSexagesimal count && isFraction List.isEmpty after)
    || ["inf", "Inf", "INF"].any fun name => dropSign cs = '.' :: name.toList
    || ["nan", "NaN", "NAN"].any fun name => cs = '.' :: name.toList

def isTruth (s : String) : Bool :=
  ["yes", "Yes", "YES", "no", "No", "NO", "true", "True", "TRUE", "false", "False", "FALSE",
    "on", "On", "ON", "off", "Off", "OFF"].contains s

def isNothing (s : String) : Bool := ["", "~", "null", "Null", "NULL"].contains s

/-- The type that a scalar without quotes and without a tag has by its form. -/
def ofPlain (s : String) : Tag :=
  let cs := s.toList
  if isTruth s then bool
  else if isReal cs then float
  else if isInteger cs then int
  else if s = "<<" then merge
  else if isNothing s then null
  else if (Timestamp.ofText? cs).any Timestamp.isPlain then timestamp
  else if s = "=" then Tag.value
  else text

end Tag

end Tablewright.Yaml
