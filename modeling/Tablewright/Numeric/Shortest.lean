import Tablewright.Numeric.Binary64

namespace Tablewright.Shortest

structure Scaled where
  digits : Nat
  exponent : Int
  deriving DecidableEq, Repr

/-- The magnitudes that round to one double: the two ends, in quarters of a unit, and whether the
ends belong to it. -/
structure Interval where
  lower : Nat
  upper : Nat
  closed : Bool

def interval (units : Nat) : Interval :=
  let step := Binary64.spacing units
  let narrow := 1 < step && units = Nat.pow 2 units.log2
  { lower := if narrow then 4 * units - step else 4 * units - 2 * step
    upper := 4 * units + 2 * step
    closed := units / step % 2 = 0 }

def Scaled.ratio (d : Scaled) : Nat × Nat :=
  if 0 ≤ d.exponent then (d.digits * Nat.pow 10 d.exponent.toNat * (4 * Binary64.one), 1)
  else (d.digits * (4 * Binary64.one), Nat.pow 10 (-d.exponent).toNat)

def Interval.contains (i : Interval) (d : Scaled) : Bool :=
  let (num, den) := d.ratio
  if i.closed then i.lower * den ≤ num && num ≤ i.upper * den
  else i.lower * den < num && num < i.upper * den

def neighbours (units : Nat) (exponent : Int) : Scaled × Scaled :=
  let q :=
    if 0 ≤ exponent then units / (Binary64.one * Nat.pow 10 exponent.toNat)
    else units * Nat.pow 10 (-exponent).toNat / Binary64.one
  (⟨q, exponent⟩, ⟨q + 1, exponent⟩)

def lowerIsNearer (units : Nat) (low high : Scaled) : Bool :=
  let (a, den) := low.ratio
  let (b, _) := high.ratio
  let v := 4 * units * den
  v - a ≤ b - v

/-- The decimal on one grid that reads back as the magnitude, the nearer of two. -/
def onGrid? (units : Nat) (exponent : Int) : Option Scaled :=
  let i := interval units
  let (low, high) := neighbours units exponent
  match i.contains low, i.contains high with
  | true, true => some (if lowerIsNearer units low high then low else high)
  | true, false => some low
  | false, true => some high
  | false, false => none

/-- The least `k` up to a bound from which `units` lies below `10 ^ (k - 324)`. -/
def widthFrom (units : Nat) : Nat → Nat
  | 0 => 0
  | k + 1 =>
    if units * Nat.pow 10 324 < Nat.pow 10 k * Binary64.one then widthFrom units k else k + 1

def width (units : Nat) : Int := (widthFrom units 634 : Int) - 324

/-- The first grid with a hit, from the coarsest of `n` finer and finer grids. -/
def search (units : Nat) (exponent : Int) : Nat → Scaled
  | 0 => (neighbours units exponent).1
  | n + 1 =>
    match onGrid? units exponent with
    | some d => d
    | none => search units (exponent - 1) n

def trim (d : Scaled) : Nat → Scaled
  | 0 => d
  | n + 1 => if d.digits % 10 = 0 then trim ⟨d.digits / 10, d.exponent + 1⟩ n else d

/-- The fewest digits that read back as a positive magnitude, and of those the nearest. -/
def decimal (units : Nat) : Scaled :=
  trim (search units (width units - 1) 17) 17

end Tablewright.Shortest
