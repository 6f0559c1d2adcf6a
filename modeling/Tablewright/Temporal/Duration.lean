import Tablewright.Numeric.Reading
import Tablewright.Temporal.Clock

namespace Tablewright

structure Duration where
  microseconds : Int
  deriving DecidableEq, Repr, Inhabited

namespace Duration

def perDay : Nat := 86400000000

def ofParts (days seconds microseconds : Int) : Duration :=
  ⟨(days * 86400 + seconds) * 1000000 + microseconds⟩

def days (d : Duration) : Int := d.microseconds / perDay

def seconds (d : Duration) : Nat := (d.microseconds % perDay).toNat / 1000000

def subseconds (d : Duration) : Nat := (d.microseconds % perDay).toNat % 1000000

@[simp]
theorem ofParts_parts (d : Duration) : ofParts d.days d.seconds d.subseconds = d := by
  cases d
  simp only [ofParts, days, seconds, subseconds, perDay]
  congr 1
  omega

def text (d : Duration) : String :=
  let days := d.days
  let s := d.seconds
  let front :=
    if days = 0 then ""
    else numeral days ++ (if days.natAbs = 1 then " day, " else " days, ")
  front ++ Nat.repr (s / 3600) ++ ":" ++ Clock.twoDigits (s / 60 % 60) ++ ":"
    ++ Clock.twoDigits (s % 60) ++ Clock.fractionText d.subseconds

def wholeSeconds (d : Duration) : Int :=
  ((Binary64.ofIntRatio d.microseconds 1000000).truncate?).getD 0

def dayLimit : Nat := 999999999

def ofMagnitude? (negative : Bool) (microseconds : Nat) : Option Duration :=
  let d : Duration := ⟨if negative then -(microseconds : Int) else microseconds⟩
  if dayLimit < d.days.natAbs then none else some d

def ofSeconds? : Binary64 → Option Duration
  | .finite s u => (Binary64.finite false u).splitMillionths?.bind fun (seconds, microseconds) =>
    ofMagnitude? s (seconds.toNat * 1000000 + microseconds)
  | _ => none

/-- A number with an optional fraction, as a numerator over a power of ten. -/
structure Amount where
  numerator : Nat
  places : Nat
  fractional : Bool

def takeAmount? (cs : List Char) : Option (Amount × List Char) :=
  match Clock.spanDigits cs with
  | ([], _) => none
  | (ds, c :: rest) =>
    if c = '.' || c = ',' then
      let (fs, rest) := Clock.spanDigits rest
      some (⟨ofDigits (ds ++ fs), fs.length, true⟩, rest)
    else some (⟨ofDigits ds, 0, false⟩, c :: rest)
  | (ds, []) => some (⟨ofDigits ds, 0, false⟩, [])

def unitSeconds? (afterT : Bool) (c : Char) : Option Nat :=
  if afterT then
    match c with
    | 'H' => some 3600
    | 'M' => some 60
    | 'S' => some 1
    | _ => none
  else
    match c with
    | 'Y' => some (365 * 86400)
    | 'M' => some (30 * 86400)
    | 'W' => some (7 * 86400)
    | 'D' => some 86400
    | _ => none

/-- The parts after `P`: amounts with units, a single `T` before the units of time, and a fraction
in the last amount only. The result is in microseconds, rounded part by part. -/
def readParts? (afterT fractionSeen : Bool) (total : Nat) : Nat → List Char → Option Nat
  | _, [] => some total
  | 0, _ :: _ => none
  | fuel + 1, c :: cs =>
    if c = 'T' then if afterT then none else readParts? true fractionSeen total fuel cs
    else if fractionSeen then none
    else do
      let (amount, rest) ← takeAmount? (c :: cs)
      match rest with
      | unit :: rest =>
        let scale := (← unitSeconds? afterT unit) * 1000000
        let den := Nat.pow 10 amount.places
        let micros := (2 * amount.numerator * scale + den) / (2 * den)
        readParts? afterT amount.fractional (total + micros) fuel rest
      | [] => none

def readTime? (cs : List Char) : Option Nat :=
  match Clock.spanDigits cs with
  | ([], _) => none
  | (ds, rest) => do
    let ((minute, second, micro), rest) ← Clock.takeMinutes? rest
    if rest.isEmpty then
      return ((ofDigits ds * 60 + minute) * 60 + second) * 1000000 + micro
    else none

def isLetter (c upperCase : Char) : Bool := c.toUpper = upperCase

/-- What may follow the letter `d` of a day count: the rest of the word, a comma and a blank. -/
def dropDayWord? : List Char → Option (List Char)
  | a :: cs =>
    if isLetter a 'A' then
      match cs with
      | y :: s :: rest =>
        if !isLetter y 'Y' then none
        else if isLetter s 'S' then some rest else some (s :: rest)
      | [y] => if isLetter y 'Y' then some [] else none
      | [] => none
    else some (a :: cs)
  | [] => some []

def readDays? (cs : List Char) : Option Nat :=
  match Clock.spanDigits cs with
  | ([], _) => none
  | (ds, rest) => do
    let rest := match rest with
      | ' ' :: rest => rest
      | rest => rest
    let days := ofDigits ds * perDay
    match rest with
    | d :: rest =>
      if !isLetter d 'D' then none
      let rest ← dropDayWord? rest
      let rest := match rest with
        | ',' :: rest => rest
        | rest => rest
      let rest := match rest with
        | ' ' :: rest => rest
        | rest => rest
      if rest.isEmpty then return days else return days + (← readTime? rest)
    | [] => none

/-- A duration in text: `P` and its parts, a count of days, or a time, with a sign in front. -/
def ofText? (cs : List Char) : Option Duration := do
  let (negative, body) := takeSign cs
  let micros ← match body with
    | 'P' :: parts =>
      if parts.length < 2 then none else readParts? false false 0 parts.length parts
    | _ => if body.any (isLetter · 'D') then readDays? body else readTime? body
  ofMagnitude? negative micros

end Duration

end Tablewright
