import Tablewright.Numeric.Shortest
import Tablewright.Text.Digit

namespace Tablewright

def numeral (n : Int) : String :=
  if n < 0 then "-" ++ Nat.repr n.natAbs else Nat.repr n.natAbs

/-- Whether an integer can be written: a numeral with too many digits is refused. -/
def hasNumeral (n : Int) : Bool := (Nat.toDigits 10 n.natAbs).length ≤ digitLimit

def padLeft (width : Nat) (s : String) : String :=
  String.ofList (List.replicate (width - s.length) '0') ++ s

namespace Binary64

def positional (digits : List Char) (point : Int) (whole : String) : String :=
  let zeros (n : Int) := List.replicate n.toNat '0'
  if point ≤ 0 then "0." ++ String.ofList (zeros (-point) ++ digits)
  else if digits.length ≤ point then
    String.ofList (digits ++ zeros (point - digits.length)) ++ whole
  else String.ofList (digits.take point.toNat) ++ "." ++ String.ofList (digits.drop point.toNat)

def scientific (digits : List Char) (exponent : Int) : String :=
  let mantissa := match digits with
    | [d] => String.ofList [d]
    | d :: ds => String.ofList (d :: '.' :: ds)
    | [] => "0"
  let sign := if exponent < 0 then "-" else "+"
  mantissa ++ "e" ++ sign ++ padLeft 2 (Nat.repr exponent.natAbs)

/-- The shortest digits of a finite magnitude and the place of the point after them. -/
def shortestDigits (units : Nat) : List Char × Int :=
  if units = 0 then (['0'], 1)
  else
    let d := Shortest.decimal units
    let digits := Nat.toDigits 10 d.digits
    (digits, digits.length + d.exponent)

/-- Shortest digits that read back; an exponent is written below `10 ^ (-4)` and from `10 ^ 16` on,
and a whole number keeps one zero after the point. -/
def text : Binary64 → String
  | .nan => "nan"
  | .infinity s => if s then "-inf" else "inf"
  | .finite s u =>
    let (digits, point) := shortestDigits u
    let body :=
      if -4 < point && point ≤ 16 then positional digits point ".0"
      else scientific digits (point - 1)
    if s then "-" ++ body else body

def plain : Binary64 → String
  | .nan => "NaN"
  | .infinity s => if s then "-inf" else "inf"
  | .finite s u =>
    let (digits, point) := shortestDigits u
    let body := positional digits point ""
    if s then "-" ++ body else body

end Binary64

end Tablewright
