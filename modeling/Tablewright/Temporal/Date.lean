import Tablewright.Numeric.Notation
import Tablewright.Text.Digit

namespace Tablewright

structure Date where
  year : Nat
  month : Nat
  day : Nat
  deriving DecidableEq, Repr, Inhabited

namespace Date

def isLeap (year : Nat) : Bool :=
  year % 4 = 0 && (year % 100 ≠ 0 || year % 400 = 0)

def monthLength (year month : Nat) : Nat :=
  if month = 2 then if isLeap year then 29 else 28
  else if month = 4 ∨ month = 6 ∨ month = 9 ∨ month = 11 then 30 else 31

def isValid (d : Date) : Bool :=
  1 ≤ d.month && d.month ≤ 12 && 1 ≤ d.day && d.day ≤ monthLength d.year d.month

def text (d : Date) : String :=
  padLeft 4 (Nat.repr d.year) ++ "-" ++ padLeft 2 (Nat.repr d.month) ++ "-"
    ++ padLeft 2 (Nat.repr d.day)

/-- The day a number of days after the first of January 1970. Years are counted from March, so
that a leap day ends its year. -/
def ofEpochDays (days : Int) : Date :=
  let z := days + 719468
  let era := z / 146097
  let inEra := (z % 146097).toNat
  let yearOfEra := (inEra - inEra / 1460 + inEra / 36524 - inEra / 146096) / 365
  let dayOfYear := inEra - (365 * yearOfEra + yearOfEra / 4 - yearOfEra / 100)
  let march := (5 * dayOfYear + 2) / 153
  let day := dayOfYear - (153 * march + 2) / 5 + 1
  let month := if march < 10 then march + 3 else march - 9
  let year := (yearOfEra : Int) + era * 400 + (if month ≤ 2 then 1 else 0)
  ⟨year.toNat, month, day⟩

def takeDigits (cs : List Char) : Nat → Option (Nat × List Char)
  | 0 => some (0, cs)
  | n + 1 => do
    let (value, rest) ← takeDigits cs n
    match rest with
    | c :: rest => return (10 * value + (← asciiDigit? c), rest)
    | [] => none

def take? (cs : List Char) : Option (Date × List Char) := do
  let (year, cs) ← takeDigits cs 4
  let '-' :: cs := cs | none
  let (month, cs) ← takeDigits cs 2
  let '-' :: cs := cs | none
  let (day, cs) ← takeDigits cs 2
  let date : Date := ⟨year, month, day⟩
  if date.isValid then some (date, cs) else none

def ofText? (cs : List Char) : Option Date :=
  match take? cs with
  | some (date, []) => some date
  | _ => none

end Date

end Tablewright
