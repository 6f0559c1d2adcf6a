import Tablewright.Log.Context
import Tablewright.Log.Level
import Tablewright.Text.Json

namespace Tablewright.Log

structure Site where
  file : String
  line : Int
  function : Option String
  deriving DecidableEq, Repr, Inhabited

structure Failure where
  kind : String
  text : String
  deriving DecidableEq, Repr, Inhabited

namespace Failure

def title (kind : String) : String :=
  if kind = "TableConfigError" then "rulesql.contracts.TableConfigError" else kind

def message (f : Failure) : String :=
  let text := if f.kind = "KeyError" then Notation.text f.text else f.text
  if text.isEmpty then title f.kind else title f.kind ++ ": " ++ text

end Failure

structure Record where
  level : Level
  logger : String
  message : Value
  context : Context
  extra : List (Value × Value)
  failure : Option Failure
  site : Site
  deriving Inhabited

namespace Record

def withComponent (component : Value) (extra : List (Value × Value)) : List (Value × Value) :=
  match component, Value.field? extra "component" with
  | .null, _ => extra
  | _, some _ => extra
  | c, none => extra ++ [(.text "component", c)]

def text (r : Record) : String := r.message.display

def stamp (now : DateTime) : String :=
  let c := now.clock
  now.date.text ++ " " ++ Clock.twoDigits c.hour ++ ":" ++ Clock.twoDigits c.minute ++ ":"
    ++ Clock.twoDigits c.second

def shown (name : String) (v : Value) : List String :=
  if v.isTruthy then [name ++ "=" ++ v.display] else []

def padRight (width : Nat) (s : String) : String :=
  s ++ String.ofList (List.replicate (width - s.length) ' ')

/-- A record as a reader sees it: the component and the context before the message, what is left
of the further fields after it. -/
def readable (now : DateTime) (r : Record) : String :=
  let component := match Value.field? r.extra "component" with
    | some v => ["component=" ++ v.display]
    | none => []
  let extra := r.extra.filter (!·.1.isText "component")
  let parts := component ++ shown "table" r.context.table ++ shown "column" r.context.column
    ++ shown "source" r.context.source
  let place := if parts.isEmpty then "" else Value.bracketed " [" "]" parts
  let rest := if extra.isEmpty then "" else " " ++ (Value.dict extra).written
  let failure := match r.failure with
    | some f => "\n" ++ f.message
    | none => ""
  stamp now ++ " " ++ padRight 8 r.level.name ++ " " ++ r.logger ++ place ++ ": " ++ r.text
    ++ rest ++ failure

def isReadable (r : Record) : Bool :=
  r.message.isWritable && (Value.dict r.extra).isWritable
    && [r.context.table, r.context.column, r.context.source].all fun v =>
      !v.isTruthy || v.isWritable

def timestamp (now : DateTime) : String :=
  now.date.text ++ "T" ++ { now.clock with offset := none }.text ++ "Z"

def baseName (path : String) : String :=
  String.ofList (path.toList.reverse.takeWhile (· ≠ '/')).reverse

def siteFields (s : Site) : Except Fault Json := do
  let line ← Json.ofInt s.line
  return .object [("file", .text (baseName s.file)), ("line", .int line),
    ("function", (s.function.map Json.text).getD .null)]

def named (name : String) (entries : List (Value × Value)) :
    Except Fault (List (String × Json)) :=
  if entries.isEmpty then .ok []
  else (Json.ofEntries entries).map fun fields => [(name, .object fields)]

/-- A record as an object. It fails when a key of its fields cannot be a name, and when a number in
it cannot be written. -/
def structured (now : DateTime) (r : Record) : Except Fault Json := do
  let message ← if r.message.isWritable then .ok r.text else .error .tooManyDigits
  let context ← named "context" r.context.fields
  let data ← named "data" r.extra
  let failure := match r.failure with
    | some f => [("exception", Json.text f.message)]
    | none => []
  let site ← siteFields r.site
  return .object
    ([("timestamp", .text (timestamp now)), ("level", .text r.level.name),
      ("logger", .text r.logger), ("message", .text message)]
      ++ context ++ data ++ failure ++ [("source", site)])

end Record

inductive Format
  | readable | structured
  deriving DecidableEq, Repr, Inhabited

def Format.line (format : Format) (now : DateTime) (r : Record) : Except Fault String :=
  match format with
  | .readable => if r.isReadable then .ok (r.readable now) else .error .tooManyDigits
  | .structured => (r.structured now).map fun j => String.ofList j.encode

end Tablewright.Log
