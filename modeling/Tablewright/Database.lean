import Tablewright.Table.Compiled

namespace Tablewright.Database

open Log (Context Record)

inductive Action
  | connect (path : String)
  | execute (sql : String)
  | openCursor
  | run (sql : String)
  | closeCursor
  | commit
  | close
  deriving DecidableEq, Repr, Inhabited

/-- A statement that the database refuses, counted from one over a connection. -/
structure Refusal where
  position : Nat
  message : String
  deriving DecidableEq, Repr, Inhabited

/-- What a database refuses of a deployment: to be set up, or one of the statements after that. -/
structure Refusals where
  setting : Option String
  statement : Option Refusal
  deriving DecidableEq, Repr, Inhabited

instance : Coe (Option Refusal) Refusals := ⟨fun statement => ⟨none, statement⟩⟩

structure Connection where
  count : Nat
  refusal : Option Refusal
  deriving DecidableEq, Repr, Inhabited

namespace Connection

def ofRefusal (refusal : Option Refusal) : Connection := ⟨0, refusal⟩

def against (c : Connection) : Option String :=
  match c.refusal with
  | some r => if r.position = c.count + 1 then some r.message else none
  | none => none

def runAll : Connection → List String → Except String Unit × Connection × List Action
  | c, [] => (.ok (), c, [])
  | c, sql :: rest =>
    let next : Connection := { c with count := c.count + 1 }
    match c.against with
    | some message => (.error message, next, [.run sql])
    | none =>
      let (result, last, actions) := runAll next rest
      (result, last, .run sql :: actions)

end Connection

def isLineEnd (c : Char) : Bool :=
  let n := c.toNat
  (0x0a ≤ n && n ≤ 0x0d) || (0x1c ≤ n && n ≤ 0x1e) || n == 0x85 || n == 0x2028 || n == 0x2029

def firstLine (s : String) : String := String.ofList (s.toList.takeWhile (!isLineEnd ·))

def hasLine (s : String) : Bool := !s.isEmpty

def reports (context : Context) (statements : List String) : List Record :=
  statements.map fun s => (Log.Event.rehearsed (firstLine s)).record context

def rehearse (context : Context) (c : Compiled) : Nat × List Record :=
  (c.statements.length, reports context c.statements)

/-- Run the statements of a table with one cursor. They are committed when all of them ran. -/
def deploy (context : Context) (c : Compiled) (connection : Connection) :
    Except String Nat × Connection × List Action × List Record :=
  let (result, connection, runs) := connection.runAll c.statements
  let actions := .openCursor :: runs ++ [.closeCursor]
  match result with
  | .error message => (.error message, connection, actions, [])
  | .ok () =>
    let n := c.statements.length
    (.ok n, connection, actions ++ [.commit], [(Log.Event.executed n c.name).record context])

/-- Why the statements of a table are not all run, or not all reported. -/
inductive RunError
  | refused (message : String)
  | noLine
  deriving DecidableEq, Repr, Inhabited

/-- Run the statements of a table over a connection, or only report them, up to one that has no
line to report. -/
def execute (context : Context) (c : Compiled) (connection : Connection) (dryRun : Bool) :
    Except RunError Nat × Connection × List Action × List Record :=
  if dryRun then
    if c.statements.all hasLine then
      let (n, records) := rehearse context c
      (.ok n, connection, [], records)
    else (.error .noLine, connection, [], reports context (c.statements.takeWhile hasLine))
  else
    let (result, connection, actions, records) := deploy context c connection
    (result.mapError .refused, connection, actions, records)

end Tablewright.Database
