import Tablewright.Numeric.Notation

namespace Tablewright

/-- A decimal number that keeps its trailing zeros: `digits * 10 ^ exponent`. -/
inductive Decimal
  | finite (negative : Bool) (digits : Nat) (exponent : Int)
  | infinity (negative : Bool)
  | nan (negative signalling : Bool) (payload : Nat)
  deriving DecidableEq, Repr, Inhabited

namespace Decimal

def isFinite : Decimal → Bool
  | .finite .. => true
  | _ => false

def isZero : Decimal → Bool
  | .finite _ 0 _ => true
  | _ => false

/-- Digits as they stand; scientific when the exponent is positive or more than five zeros would
follow the point. -/
def text : Decimal → String
  | .infinity s => if s then "-Infinity" else "Infinity"
  | .nan s signalling payload =>
    (if s then "-" else "") ++ (if signalling then "sNaN" else "NaN")
      ++ (if payload = 0 then "" else Nat.repr payload)
  | .finite s digits exponent =>
    let ds := Nat.toDigits 10 digits
    let left : Int := exponent + ds.length
    let point : Int := if exponent ≤ 0 && -6 < left then left else 1
    let tail :=
      if left = point then ""
      else "E" ++ (if left < point then "-" else "+") ++ Nat.repr (left - point).natAbs
    (if s then "-" else "") ++ Binary64.positional ds point "" ++ tail

def toInt? : Decimal → Option Int
  | .finite s digits exponent =>
    let sign (n : Nat) : Int := if s then -(n : Int) else n
    if 0 ≤ exponent then some (sign (digits * Nat.pow 10 exponent.toNat))
    else if digits % Nat.pow 10 (-exponent).toNat = 0 then
      some (sign (digits / Nat.pow 10 (-exponent).toNat))
    else none
  | _ => none

def toFloat? : Decimal → Option Binary64
  | .finite s digits exponent => some (.ofScientific s digits exponent)
  | .infinity s => some (.infinity s)
  | .nan _ true _ => none
  | .nan _ false _ => some .nan

def same (d : Decimal) (n : Number) : Bool :=
  match d, n.position? with
  | .finite s digits exponent, some (0, units) =>
    let scaled : Int := (if s then -(digits : Int) else digits) * Binary64.one
    if 0 ≤ exponent then scaled * Nat.pow 10 exponent.toNat = units
    else scaled = units * Nat.pow 10 (-exponent).toNat
  | .infinity s, some (side, _) => side = if s then -1 else 1
  | _, _ => false

end Decimal

end Tablewright
