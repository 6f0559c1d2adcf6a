import Tablewright.Rule.Stack
import Tablewright.Sql.Check
import Tablewright.Sql.Default
import Tablewright.Table.Basic

namespace Tablewright.Sql

open Log (Event)

def actionText (word : String) (action : Option ReferentialAction) : List String :=
  match action with
  | some a => [word ++ " " ++ a.text]
  | none => []

def referenceClauses : Option ForeignKey → List String
  | none => []
  | some fk =>
    ("REFERENCES " ++ fk.table ++ "(" ++ fk.column ++ ")")
      :: actionText "ON DELETE" fk.onDelete ++ actionText "ON UPDATE" fk.onUpdate

/-- The clauses of a column: name, type, and what is true of it, in this order. -/
def clauses (c : Column) (u : Unwrapped) : List String :=
  [c.name, (storage u.leaf).word]
    ++ (if u.nullable then [] else ["NOT NULL"])
    ++ (u.default.map fun v => defaultClause v (storage u.leaf)).toList
    ++ (if c.unique then ["UNIQUE"] else [])
    ++ (check? c.name c.rule).toList
    ++ referenceClauses c.references

def columnText (c : Column) (u : Unwrapped) : String := " ".intercalate (clauses c u)

def storageEvents (leaf : Rule) : List Event :=
  if (storage? leaf).isNone then [.noStorage leaf.kind] else []

def hasDefaults (u : Unwrapped) : Bool := u.default.all fun v => hasDefault v (storage u.leaf)

def isWritable (c : Column) (u : Unwrapped) : Bool :=
  hasDefaults u && (conditions c.rule).all (·.isWritable)

def clauseEvents (u : Unwrapped) : List Event :=
  storageEvents u.leaf
    ++ if hasDefaults u then (u.default.map fun v => defaultEvents v (storage u.leaf)).getD []
      else []

def columnEvents (c : Column) (u : Unwrapped) : List Event :=
  clauseEvents u ++ [.column c.name (columnText c u)]

def defineColumn (c : Column) : Run (String × List Event) := do
  let u ← c.rule.unwrap
  if isWritable c u then return (columnText c u, columnEvents c u) else .fail .tooManyDigits

def failureEvents (c : Column) (calls : Calls) : List Event :=
  match c.rule.unwrap calls with
  | (.ok u, _) => clauseEvents u
  | (.error _, _) => []

end Tablewright.Sql
