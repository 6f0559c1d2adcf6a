import Tablewright.Text.Notation
import Tablewright.Value

namespace Tablewright.Value

def bracketed (opening closing : String) (items : List String) : String :=
  opening ++ ", ".intercalate items ++ closing

def clockArguments (c : Clock) : List String :=
  [numeral c.hour, numeral c.minute]
    ++ (if c.second = 0 ∧ c.microsecond = 0 then [] else [numeral c.second])
    ++ (if c.microsecond = 0 then [] else [numeral c.microsecond])

def durationNotation (d : Duration) : String :=
  let part (name : String) (n : Int) : List String :=
    if n = 0 then [] else [name ++ "=" ++ numeral n]
  let parts := part "days" d.days ++ part "seconds" d.seconds ++ part "microseconds" d.subseconds
  bracketed "datetime.timedelta(" ")" (if parts.isEmpty then ["0"] else parts)

def zoneNotation (offset : Option Int) : List String :=
  match offset with
  | none => []
  | some 0 => ["tzinfo=datetime.timezone.utc"]
  | some s => ["tzinfo=datetime.timezone(" ++ durationNotation (.ofParts 0 s 0) ++ ")"]

def dateArguments (d : Date) : List String := [numeral d.year, numeral d.month, numeral d.day]

mutual

def written : Value → String
  | .null => "None"
  | .bool b => if b then "True" else "False"
  | .int n => numeral n
  | .float x => x.text
  | .text s => Notation.text s
  | .bytes bs => Notation.bytes bs
  | .date d => bracketed "datetime.date(" ")" (dateArguments d)
  | .datetime d => bracketed "datetime.datetime(" ")"
      (dateArguments d.date ++ clockArguments d.clock ++ zoneNotation d.clock.offset)
  | .time c => bracketed "datetime.time(" ")" (clockArguments c ++ zoneNotation c.offset)
  | .duration d => durationNotation d
  | .decimal d => "Decimal('" ++ d.text ++ "')"
  | .member v => "<Member.VALUE: " ++ written v ++ ">"
  | .list xs => bracketed "[" "]" (writtenAll xs)
  | .tuple xs =>
    match writtenAll xs with
    | [x] => "(" ++ x ++ ",)"
    | items => bracketed "(" ")" items
  | .set xs => if xs.isEmpty then "set()" else bracketed "\x7b" "\x7d" (writtenAll xs)
  | .dict es => bracketed "\x7b" "\x7d" (writtenEntries es)
  | .record fs _ => bracketed "\x7b" "\x7d" (writtenFields fs)
  | .function slot => "<function " ++ numeral slot ++ ">"

def writtenAll : List Value → List String
  | [] => []
  | v :: vs => written v :: writtenAll vs

def writtenEntries : List (Value × Value) → List String
  | [] => []
  | (k, v) :: es => (written k ++ ": " ++ written v) :: writtenEntries es

def writtenFields : List (String × Value) → List String
  | [] => []
  | (k, v) :: fs => (Notation.text k ++ ": " ++ written v) :: writtenFields fs

end

mutual

def isWritable : Value → Bool
  | .int n => hasNumeral n
  | .member v => isWritable v
  | .list xs | .tuple xs | .set xs => allWritable xs
  | .dict es => entriesWritable es
  | .record fs _ => fieldsWritable fs
  | _ => true

def allWritable : List Value → Bool
  | [] => true
  | v :: vs => isWritable v && allWritable vs

def entriesWritable : List (Value × Value) → Bool
  | [] => true
  | (k, v) :: es => isWritable k && isWritable v && entriesWritable es

def fieldsWritable : List (String × Value) → Bool
  | [] => true
  | (_, v) :: fs => isWritable v && fieldsWritable fs

end

def display : Value → String
  | .text s => s
  | .date d => d.text
  | .datetime d => d.date.text ++ " " ++ d.clock.text
  | .time c => c.text
  | .duration d => d.text
  | .decimal d => d.text
  | .member v => "Member." ++ v.written
  | v => v.written

/-- The text that a column of text stores: members by value, dates and times in ISO form. -/
def storedText : Value → String
  | .member v => plain v
  | v => plain v
where
  plain : Value → String
    | .datetime d => d.text
    | v => v.display

end Tablewright.Value
