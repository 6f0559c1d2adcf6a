namespace Tablewright

/-- A double-precision number. A finite magnitude counts units of `2 ^ (-1074)`, the smallest
positive double, so that comparison and rounding are arithmetic on whole numbers. -/
inductive Binary64
  | nan
  | infinity (negative : Bool)
  | finite (negative : Bool) (units : Nat)
  deriving DecidableEq, Repr, Inhabited

namespace Binary64

def one : Nat := Nat.pow 2 1074

def largest : Nat := (Nat.pow 2 53 - 1) * Nat.pow 2 2045

def spacing (units : Nat) : Nat :=
  if units < Nat.pow 2 53 then 1 else Nat.pow 2 (units.log2 - 52)

def roundHalfEven (num den : Nat) : Nat :=
  let q := num / den
  let r := num % den
  if 2 * r < den then q
  else if den < 2 * r then q + 1
  else if q % 2 = 0 then q else q + 1

/-- The double nearest to `num / den`; a tie goes to the even significand, and what rounds past
the largest finite double is infinite. -/
def ofRatio (negative : Bool) (num den : Nat) : Binary64 :=
  let scaled := num * one
  let step := spacing (scaled / den)
  let units := roundHalfEven scaled (den * step) * step
  if largest < units then .infinity negative else .finite negative units

def ofInt (n : Int) : Binary64 := ofRatio (n < 0) n.natAbs 1

/-- The double nearest to `digits * 10 ^ exponent`. Exponents far outside the range of doubles
are decided without computing the power. -/
def ofScientific (negative : Bool) (digits : Nat) (exponent : Int) : Binary64 :=
  let width : Int := (Nat.toDigits 10 digits).length
  if digits = 0 then .finite negative 0
  else if 400 < exponent + width then .infinity negative
  else if exponent + width < -400 then .finite negative 0
  else if 0 ≤ exponent then ofRatio negative (digits * Nat.pow 10 exponent.toNat) 1
  else ofRatio negative digits (Nat.pow 10 (-exponent).toNat)

def isFinite : Binary64 → Bool
  | .finite _ _ => true
  | _ => false

def isZero : Binary64 → Bool
  | .finite _ 0 => true
  | _ => false

def signedUnits? : Binary64 → Option Int
  | .finite s u => some (if s then -(u : Int) else u)
  | _ => none

def isWhole : Binary64 → Bool
  | .finite _ u => u % one = 0
  | _ => false

def truncate? : Binary64 → Option Int
  | .finite s u => some (if s then -((u / one : Nat) : Int) else (u / one : Nat))
  | _ => none

/-- A position on the extended number line, ordered by its two parts in turn; a number that is
not a number has none. -/
def position? : Binary64 → Option (Int × Int)
  | .nan => none
  | .infinity s => some (if s then -1 else 1, 0)
  | .finite s u => some (0, if s then -(u : Int) else u)

def negate : Binary64 → Binary64
  | .nan => .nan
  | .infinity s => .infinity !s
  | .finite s u => .finite (!s) u

def plus : Binary64 → Binary64 → Binary64
  | .nan, _ | _, .nan => .nan
  | .infinity s, .infinity t => if s = t then .infinity s else .nan
  | .infinity s, .finite _ _ | .finite _ _, .infinity s => .infinity s
  | .finite s u, .finite t v =>
    if s = t then ofRatio s (u + v) one
    else if u < v then ofRatio t (v - u) one
    else if v < u then ofRatio s (u - v) one
    else .finite false 0

def times (n : Nat) : Binary64 → Binary64
  | .nan => .nan
  | .infinity s => .infinity s
  | .finite s u => ofRatio s (u * n) one

def dividedBy (n : Nat) : Binary64 → Binary64
  | .nan => .nan
  | .infinity s => .infinity s
  | .finite s u => ofRatio s u (n * one)

/-- A finite double as the whole number below it and the millionths above that. The millionths are
a product of doubles before they are rounded, half upward. -/
def splitMillionths? (x : Binary64) : Option (Int × Nat) :=
  x.signedUnits?.bind fun units =>
    let whole := units / (one : Int)
    match times 1000000 (x.plus (ofInt (-whole))) with
    | .finite _ u => some (whole, (2 * u + one) / (2 * one))
    | _ => none

/-- The double nearest to the ratio of two integers, as true division gives it. -/
def ofIntRatio (num : Int) (den : Nat) : Binary64 :=
  ofRatio (num < 0) num.natAbs den

end Binary64

/-- A whole number of any size or a double, kept apart. -/
inductive Number
  | int (n : Int)
  | float (x : Binary64)
  deriving DecidableEq, Repr, Inhabited

namespace Number

def position? : Number → Option (Int × Int)
  | .int n => some (0, n * Binary64.one)
  | .float x => x.position?

def lt (a b : Number) : Bool :=
  match a.position?, b.position? with
  | some p, some q => p.1 < q.1 || (p.1 = q.1 && p.2 < q.2)
  | _, _ => false

def le (a b : Number) : Bool :=
  match a.position?, b.position? with
  | some p, some q => p.1 < q.1 || (p.1 = q.1 && p.2 ≤ q.2)
  | _, _ => false

def same (a b : Number) : Bool :=
  match a.position?, b.position? with
  | some p, some q => p = q
  | _, _ => false

def toFloat : Number → Binary64
  | .int n => .ofInt n
  | .float x => x

def max (a b : Number) : Number := if a.lt b then b else a

def min (a b : Number) : Number := if b.lt a then b else a

end Number

end Tablewright
