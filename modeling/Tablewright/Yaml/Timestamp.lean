import Tablewright.Temporal.Clock
import Tablewright.Yaml.Input

namespace Tablewright.Yaml

/-- A date, and a time with it, as they are written: neither need exist. -/
structure Timestamp where
  date : Date
  clock : Option Clock
  isPadded : Bool

namespace Timestamp

def takeShort? (cs : List Char) : Option (Nat × List Char) :=
  Date.takeDigits cs 2 <|> Date.takeDigits cs 1

def readOffset? : List Char → Option Int
  | ['Z'] => some 0
  | sign :: cs =>
    if sign = '+' || sign = '-' then do
      let (hours, cs) ← takeShort? cs
      let (minutes, cs) ← match cs with
        | ':' :: cs => Date.takeDigits cs 2
        | cs => some (0, cs)
      if !cs.isEmpty then none
      let seconds : Int := hours * 3600 + minutes * 60
      return if sign = '-' then -seconds else seconds
    else none
  | [] => none

def readClock? (cs : List Char) : Option Clock := do
  let cs ← match cs with
    | 'T' :: cs | 't' :: cs => some cs
    | c :: cs => if isGap c then some (cs.dropWhile isGap) else none
    | [] => none
  let (hour, cs) ← takeShort? cs
  let ':' :: cs := cs | none
  let (minute, cs) ← Date.takeDigits cs 2
  let ':' :: cs := cs | none
  let (second, cs) ← Date.takeDigits cs 2
  let (fraction, cs) := match cs with
    | '.' :: cs => Clock.spanDigits cs
    | cs => ([], cs)
  let clock : Clock := ⟨hour, minute, second, Clock.microseconds fraction, none⟩
  if cs.isEmpty then return clock
  else return { clock with offset := some (← readOffset? (cs.dropWhile isGap)) }

def ofText? (cs : List Char) : Option Timestamp := do
  let (year, cs) ← Date.takeDigits cs 4
  let '-' :: monthOn := cs | none
  let (month, cs) ← takeShort? monthOn
  let '-' :: dayOn := cs | none
  let (day, cs) ← takeShort? dayOn
  let isPadded := monthOn.length = cs.length + 5
  if cs.isEmpty then return ⟨⟨year, month, day⟩, none, isPadded⟩
  else return ⟨⟨year, month, day⟩, some (← readClock? cs), isPadded⟩

/-- Whether a plain scalar is read as a timestamp: a date alone has all its digits. -/
def isPlain (t : Timestamp) : Bool := t.isPadded || t.clock.isSome

def isValid (t : Timestamp) : Bool :=
  t.date.isValid && 1 ≤ t.date.year && t.clock.all fun c =>
    c.hour < 24 && c.minute < 60 && c.second < 60 && c.offset.all (·.natAbs < 86400)

end Timestamp

end Tablewright.Yaml
