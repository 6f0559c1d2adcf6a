import Tablewright.Issue
import Tablewright.Value.Display

namespace Tablewright

/-- How well a value fits a type: it has the type already, it is a number of a narrower type, or
it was converted. -/
inductive Exactness
  | exact | strict | lax
  deriving DecidableEq, Repr, Inhabited

namespace Exactness

def rank : Exactness → Nat
  | .exact => 0
  | .strict => 1
  | .lax => 2

def worst (a b : Exactness) : Exactness := if a.rank < b.rank then b else a

def betterThan (a b : Exactness) : Bool := a.rank < b.rank

end Exactness

abbrev Coerced (α : Type) := Except Cause (α × Exactness)

namespace Coercion

def utf8? (bs : List UInt8) : Option String := String.fromUTF8? ⟨bs.toArray⟩

def toUtf8 (s : String) : List UInt8 := s.toUTF8.toList

def characters? : Value → Option (Option (List Char))
  | .text s => some (some s.toList)
  | .bytes bs => some ((utf8? bs).map String.toList)
  | _ => none

def toText : Value → Coerced String
  | .text s => .ok (s, .exact)
  | .bytes bs =>
    match utf8? bs with
    | some s => .ok (s, .lax)
    | none => .error .notUnicode
  | _ => .error .notText

def toBytes : Value → Coerced (List UInt8)
  | .bytes bs => .ok (bs, .exact)
  | .text s => .ok (toUtf8 s, .lax)
  | _ => .error .notBytes

def wordLimit : Nat := Nat.pow 2 63

def wholeFloat (x : Binary64) : Except Cause Int :=
  match x.truncate? with
  | none => .error .notFinite
  | some n =>
    if !x.isWhole then .error .fractionalInt
    else if wordLimit ≤ n.natAbs then .error .intTooLong
    else .ok n

def readInt (cs : List Char) : Except Cause Int :=
  if digitLimit < cs.length then .error .intTooLong
  else
    let cs := trimBy isWhiteSpace cs
    let whole := cs.takeWhile (· ≠ '.')
    let rest := cs.drop whole.length
    let zeros := match rest with
      | [] => true
      | _ :: zeros => !zeros.isEmpty && zeros.all (· = '0')
    match zeros, readInt? asciiDigit? whole with
    | true, some n => .ok n
    | _, _ => .error .unreadableInt

def toInt (v : Value) : Coerced Int :=
  match v with
  | .int n => .ok (n, .exact)
  | .bool b => .ok (if b then 1 else 0, .lax)
  | .float x => (wholeFloat x).map (·, .lax)
  | .decimal d =>
    if !d.isFinite then .error .notFinite
    else match d.toInt? with
      | some n => .ok (n, .lax)
      | none => .error .fractionalInt
  | _ =>
    match characters? v with
    | some (some cs) => (readInt cs).map (·, .lax)
    | some none => .error .unreadableInt
    | none => .error .notInt

def toFloat (v : Value) : Coerced Binary64 :=
  match v with
  | .float x => .ok (x, .exact)
  | .bool b => .ok (.ofInt (if b then 1 else 0), .lax)
  | .int n =>
    match Binary64.ofInt n with
    | .infinity _ => .error .notFloat
    | x => .ok (x, .strict)
  | .decimal d =>
    match d.toFloat? with
    | some x => .ok (x, .strict)
    | none => .error .notFloat
  | _ =>
    match characters? v with
    | some cs =>
      match cs.bind fun cs => readFloat? asciiDigit? (trimBy isWhiteSpace cs) with
      | some x => .ok (x, .lax)
      | none => .error .unreadableFloat
    | none => .error .notFloat

def falseWords : List String := ["0", "off", "f", "false", "n", "no"]

def trueWords : List String := ["1", "on", "t", "true", "y", "yes"]

def readBool (cs : List Char) : Except Cause Bool :=
  let word := String.ofList (cs.map Char.toLower)
  if falseWords.contains word then .ok false
  else if trueWords.contains word then .ok true
  else .error .unreadableBool

def bit (n : Int) (otherwise : Cause) : Coerced Bool :=
  if n = 0 then .ok (false, .lax) else if n = 1 then .ok (true, .lax) else .error otherwise

def isWord (n : Int) : Bool := -(wordLimit : Int) ≤ n && n < wordLimit

def toBool (v : Value) : Coerced Bool :=
  match v with
  | .bool b => .ok (b, .exact)
  | .int n => if isWord n then bit n .unreadableBool else .error .notBool
  | .float x => if x.isWhole then bit (x.truncate?.getD 2) .notBool else .error .notBool
  | .decimal d => bit (d.toInt?.getD 2) .notBool
  | _ =>
    match characters? v with
    | some (some cs) => (readBool cs).map (·, .lax)
    | some none => .error .unreadableBool
    | none => .error .notBool

def readTimestamp? (cs : List Char) : Option DateTime :=
  let (negative, body) := takeSign cs
  match Clock.spanDigits body with
  | ([], _) => none
  | (ds, []) => DateTime.ofTimestamp? (withSign negative (ofDigits ds)) 0
  | (ds, '.' :: more) =>
    match Clock.spanDigits more with
    | (fs, []) =>
      DateTime.ofScaledFloat? (.ofScientific negative (ofDigits (ds ++ fs)) (-fs.length))
    | _ => none
  | _ => none

def readDateTime? (cs : List Char) : Option DateTime :=
  match DateTime.ofText? cs with
  | some d => some d
  | none => readTimestamp? cs

def timestamp? (v : Value) : Option (Option DateTime) :=
  match v with
  | .int n =>
    match Binary64.ofInt n with
    | .infinity _ => none
    | _ => some (DateTime.ofTimestamp? n 0)
  | .float x => some (DateTime.ofFloat? x)
  | .decimal d => d.toFloat?.map DateTime.ofFloat?
  | _ => none

def guardYear (date : Date) (cause : Cause) (result : Coerced α) : Coerced α :=
  if date.year = 0 then .error cause else result

def toDateTime (v : Value) : Coerced DateTime :=
  match v with
  | .datetime d => .ok (d, .exact)
  | .date d => .ok (⟨d, .midnight⟩, .lax)
  | _ =>
    match characters? v with
    | some cs =>
      match cs.bind fun cs => (readDateTime? cs <|> (Date.ofText? cs).map (⟨·, .midnight⟩)) with
      | some d => guardYear d.date .unreadableDateTime (.ok (d, .lax))
      | none => .error .unreadableDateTimeOrDate
    | none =>
      match timestamp? v with
      | some (some d) => .ok (d, .lax)
      | some none => .error .unreadableDateTime
      | none => .error .notDateTime

def exactDate (d : DateTime) : Coerced Date :=
  if d.clock.isMidnight then .ok (d.date, .lax) else .error .inexactDate

def toDate (v : Value) : Coerced Date :=
  match v with
  | .date d => .ok (d, .exact)
  | .datetime d => exactDate d
  | _ =>
    match characters? v with
    | some cs =>
      match cs.bind Date.ofText?, cs.bind readDateTime? with
      | some d, _ => guardYear d .unreadableDate (.ok (d, .lax))
      | none, some d => guardYear d.date .unreadableDate (exactDate d)
      | none, none => .error .unreadableDateOrTime
    | none =>
      match timestamp? v with
      | some (some d) => exactDate d
      | some none => .error .unreadableDateOrTime
      | none => .error .notDate

def toDuration (v : Value) : Coerced Duration :=
  let checked (d : Option Duration) : Coerced Duration :=
    match d with
    | some d => .ok (d, .lax)
    | none => .error .unreadableDuration
  match v with
  | .duration d => .ok (d, .exact)
  | .bool b => .ok (.ofParts 0 (if b then 1 else 0) 0, .lax)
  | .int n =>
    match Binary64.ofInt n with
    | .infinity _ => .error .notDuration
    | _ => checked (Duration.ofMagnitude? (n < 0) (n.natAbs * 1000000))
  | .float x => checked (Duration.ofSeconds? x)
  | .decimal d =>
    match d.toFloat? with
    | some x => checked (Duration.ofSeconds? x)
    | none => .error .notDuration
  | _ =>
    match characters? v with
    | some cs => checked (cs.bind Duration.ofText?)
    | none => .error .notDuration

def toItems (v : Value) : Option (List Value × Exactness) :=
  match v with
  | .list xs => some (xs, .exact)
  | .tuple xs | .set xs => some (xs, .lax)
  | _ => none

end Coercion

end Tablewright
