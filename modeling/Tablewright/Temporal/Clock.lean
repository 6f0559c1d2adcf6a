import Tablewright.Numeric.Binary64
import Tablewright.Temporal.Date

namespace Tablewright

/-- A time of day, with an offset from universal time in seconds when it has one. -/
structure Clock where
  hour : Nat
  minute : Nat
  second : Nat
  microsecond : Nat
  offset : Option Int
  deriving DecidableEq, Repr, Inhabited

namespace Clock

def midnight : Clock := ⟨0, 0, 0, 0, none⟩

def isMidnight (c : Clock) : Bool :=
  c.hour = 0 && c.minute = 0 && c.second = 0 && c.microsecond = 0

def twoDigits (n : Nat) : String := padLeft 2 (Nat.repr n)

def fractionText (microsecond : Nat) : String :=
  if microsecond = 0 then "" else "." ++ padLeft 6 (Nat.repr microsecond)

def offsetText (seconds : Int) : String :=
  let n := seconds.natAbs
  (if seconds < 0 then "-" else "+") ++ twoDigits (n / 3600) ++ ":" ++ twoDigits (n / 60 % 60)
    ++ (if n % 60 = 0 then "" else ":" ++ twoDigits (n % 60))

def text (c : Clock) : String :=
  twoDigits c.hour ++ ":" ++ twoDigits c.minute ++ ":" ++ twoDigits c.second
    ++ fractionText c.microsecond ++ (c.offset.map offsetText).getD ""

def microseconds (digits : List Nat) : Nat :=
  ((digits ++ List.replicate 6 0).take 6).foldl (fun n d => 10 * n + d) 0

def spanDigits : List Char → List Nat × List Char
  | [] => ([], [])
  | c :: cs =>
    match asciiDigit? c with
    | some d => let (ds, rest) := spanDigits cs; (d :: ds, rest)
    | none => ([], c :: cs)

def takeMinutes? (cs : List Char) : Option ((Nat × Nat × Nat) × List Char) := do
  let ':' :: cs := cs | none
  let (minute, cs) ← Date.takeDigits cs 2
  if 59 < minute then none
  match cs with
  | ':' :: cs =>
    let (second, cs) ← Date.takeDigits cs 2
    if 59 < second then none
    match cs with
    | c :: more =>
      if c = '.' || c = ',' then
        match spanDigits more with
        | ([], _) => none
        | (ds, rest) => some ((minute, second, microseconds ds), rest)
      else some ((minute, second, 0), cs)
    | [] => some ((minute, second, 0), [])
  | _ => some ((minute, 0, 0), cs)

def takeTime? (cs : List Char) : Option (Clock × List Char) := do
  let (hour, cs) ← Date.takeDigits cs 2
  if 23 < hour then none
  let ((minute, second, microsecond), cs) ← takeMinutes? cs
  return (⟨hour, minute, second, microsecond, none⟩, cs)

def readOffset? : List Char → Option (Option Int)
  | [] => some none
  | c :: cs =>
    if c = 'Z' || c = 'z' then if cs.isEmpty then some (some 0) else none
    else if c = '+' || c = '-' || c = '\u2212' then do
      let (hours, cs) ← Date.takeDigits cs 2
      let cs := match cs with
        | ':' :: cs => cs
        | cs => cs
      let (minutes, cs) ← Date.takeDigits cs 2
      if cs.isEmpty && minutes < 60 && hours < 24 then
        let seconds : Int := hours * 3600 + minutes * 60
        return some (if c = '+' then seconds else -seconds)
      else none
    else none

def ofText? (cs : List Char) : Option Clock := do
  let (clock, rest) ← takeTime? cs
  return { clock with offset := ← readOffset? rest }

end Clock

structure DateTime where
  date : Date
  clock : Clock
  deriving DecidableEq, Repr, Inhabited

namespace DateTime

def text (d : DateTime) : String := d.date.text ++ "T" ++ d.clock.text

def ofText? (cs : List Char) : Option DateTime := do
  let (date, rest) ← Date.take? cs
  match rest with
  | c :: cs =>
    if c = 'T' || c = 't' || c = ' ' || c = '_' then return ⟨date, ← Clock.ofText? cs⟩ else none
  | [] => none

/-- The moment a number of seconds and microseconds after the start of 1970, in universal time. -/
def ofEpoch (seconds : Int) (microsecond : Nat) : DateTime :=
  let inDay := (seconds % 86400).toNat
  ⟨Date.ofEpochDays (seconds / 86400),
    ⟨inDay / 3600, inDay / 60 % 60, inDay % 60, microsecond, some 0⟩⟩

def millisecondThreshold : Nat := 20000000000

def ofTimestamp? (count : Int) (microsecond : Nat) : Option DateTime :=
  let (seconds, extra) :=
    if count.natAbs ≤ millisecondThreshold then (count, 0)
    else (count / 1000, (count % 1000).toNat * 1000)
  let total := microsecond + extra
  let seconds := seconds + (total / 1000000 : Nat)
  if -11676096000 ≤ seconds ∧ seconds ≤ 253402300799 then
    some (ofEpoch seconds (total % 1000000))
  else none

/-- The moment that a number with a fraction counts to, with the whole part deciding the unit. -/
def ofFloat? (x : Binary64) : Option DateTime :=
  x.splitMillionths?.bind fun (count, microsecond) => ofTimestamp? count microsecond

/-- The moment that a number with a fraction counts to, with the fraction in the unit of the
whole. -/
def ofScaledFloat? (x : Binary64) : Option DateTime :=
  match x with
  | .finite _ u =>
    ofFloat? (if millisecondThreshold * Binary64.one < u then x.dividedBy 1000 else x)
  | _ => none

end DateTime

end Tablewright
