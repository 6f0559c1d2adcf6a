import Tablewright.Numeric.Decimal
import Tablewright.Text.Blank
import Tablewright.Text.Digit

namespace Tablewright

abbrev DigitReader := Char → Option Nat

namespace DigitReader

variable (digit? : DigitReader)

def dropSeparators (afterDigit : Bool) : List Char → Option (List Char)
  | [] => some []
  | '_' :: c :: cs =>
    if afterDigit && (digit? c).isSome then (dropSeparators true cs).map (c :: ·) else none
  | c :: cs =>
    if c = '_' then none
    else (dropSeparators (digit? c).isSome cs).map (c :: ·)

def digits : List Char → List Nat × List Char
  | [] => ([], [])
  | c :: cs =>
    match digit? c with
    | some d => let (ds, rest) := digits cs; (d :: ds, rest)
    | none => ([], c :: cs)

end DigitReader

def ofDigits (ds : List Nat) : Nat := ds.foldl (fun n d => 10 * n + d) 0

def takeSign : List Char → Bool × List Char
  | '-' :: cs => (true, cs)
  | '+' :: cs => (false, cs)
  | cs => (false, cs)

def withSign (negative : Bool) (n : Nat) : Int := if negative then -(n : Int) else n

/-- An integer numeral: a sign, then digits with single underscores between them. -/
def readInt? (digit? : DigitReader) (cs : List Char) : Option Int :=
  let (negative, body) := takeSign cs
  match digit?.dropSeparators false body with
  | none => none
  | some body =>
    match digit?.digits body with
    | ([], _) | (_, _ :: _) => none
    | (ds, []) => if digitLimit < ds.length then none else some (withSign negative (ofDigits ds))

def readExponent? (digit? : DigitReader) : List Char → Option Int
  | [] => some 0
  | c :: cs =>
    if c = 'e' || c = 'E' then
      let (negative, body) := takeSign cs
      match digit?.digits body with
      | (d :: ds, []) => some (withSign negative (ofDigits (d :: ds)))
      | _ => none
    else none

def readMagnitude? (digit? : DigitReader) (negative : Bool) (cs : List Char) : Option Binary64 :=
  let (whole, rest) := digit?.digits cs
  let (fraction, rest) := match rest with
    | '.' :: more => digit?.digits more
    | _ => ([], rest)
  if (whole ++ fraction).isEmpty then none
  else (readExponent? digit? rest).map fun e =>
    .ofScientific negative (ofDigits (whole ++ fraction)) (e - fraction.length)

def readFloat? (digit? : DigitReader) (cs : List Char) : Option Binary64 :=
  match digit?.dropSeparators false cs with
  | none => none
  | some cs =>
    let (negative, body) := takeSign cs
    match String.ofList (body.map Char.toLower) with
    | "inf" | "infinity" => some (.infinity negative)
    | "nan" => some .nan
    | _ => readMagnitude? digit? negative body

def Decimal.ofText? (s : String) : Option Decimal :=
  let (negative, body) := takeSign s.toList
  let lower := String.ofList (body.map Char.toLower)
  let payload (n : Nat) : Option Nat := match asciiDigits (body.drop n) with
    | (ds, []) => some (ofDigits ds)
    | _ => none
  if lower == "inf" || lower == "infinity" then some (.infinity negative)
  else if lower.startsWith "nan" then (payload 3).map (.nan negative false)
  else if lower.startsWith "snan" then (payload 4).map (.nan negative true)
  else
    let (whole, rest) := asciiDigits body
    let (fraction, rest) := match rest with
      | '.' :: more => asciiDigits more
      | _ => ([], rest)
    if (whole ++ fraction).isEmpty then none
    else (readExponent? asciiDigit? rest).map fun e =>
      .finite negative (ofDigits (whole ++ fraction)) (e - fraction.length)
where
  asciiDigits := DigitReader.digits asciiDigit?

end Tablewright
