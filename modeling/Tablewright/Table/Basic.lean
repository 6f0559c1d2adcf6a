import Tablewright.Rule.Reading

namespace Tablewright

/-- What happens to a row when the row it refers to is deleted or updated. -/
inductive ReferentialAction
  | noAction | restrict | setNull | setDefault | cascade
  deriving DecidableEq, Repr, Inhabited

namespace ReferentialAction

def all : List ReferentialAction := [.noAction, .restrict, .setNull, .setDefault, .cascade]

def text : ReferentialAction → String
  | .noAction => "NO ACTION"
  | .restrict => "RESTRICT"
  | .setNull => "SET NULL"
  | .setDefault => "SET DEFAULT"
  | .cascade => "CASCADE"

end ReferentialAction

structure ForeignKey where
  table : String
  column : String
  onDelete : Option ReferentialAction
  onUpdate : Option ReferentialAction
  deriving DecidableEq, Repr, Inhabited

structure Column where
  name : String
  rule : Rule
  unique : Bool
  references : Option ForeignKey
  deriving Inhabited

structure Index where
  name : String
  columns : List String
  unique : Bool
  condition : Option String
  deriving DecidableEq, Repr, Inhabited

structure Table where
  name : String
  columns : List Column
  primaryKeys : List String
  indexes : List Index
  description : Option String
  deriving Inhabited

def Table.columnNames (t : Table) : List String := t.columns.map (·.name)

def Table.column? (t : Table) (name : String) : Option Column :=
  t.columns.find? (·.name == name)

open Read

/-- A model is read from a dictionary, its unknown keys being complained of last. -/
def readModel (title : String) (known : List String) (read : Entries → Read α) (v : Value) :
    Read α :=
  match v with
  | .dict entries => (read entries).andIssues (Entries.unknown known entries)
  | _ => fail (.notModel title)

def readWords (v : Value) : Read (List String) :=
  match v with
  | .text s => .ok [s]
  | _ => list text v

def someItems (r : Read (List α)) : Read (List α) :=
  match r with
  | .ok [] => fail (.tooFew .list)
  | r => r

def ForeignKey.read : Value → Read ForeignKey :=
  let action := orNull (choice ReferentialAction.all ReferentialAction.text)
  readModel "ForeignKeySpec" ["table", "column", "on_delete", "on_update"] fun es =>
    both (· ·)
      (both (· ·)
        (both ForeignKey.mk
          (fieldOr es "table" (fail .missing) Read.name)
          (fieldOr es "column" (fail .missing) Read.name))
        (fieldOr es "on_delete" (.ok none) action))
      (fieldOr es "on_update" (.ok none) action)

def Column.read (fs : Functions) : Value → Read Column :=
  readModel "ColumnSpec" ["name", "rule", "unique", "references"] fun es =>
    both (· ·)
      (both (· ·)
        (both Column.mk
          (fieldOr es "name" (fail .missing) Read.name)
          (fieldOr es "rule" (fail .missing) (Rule.read fs)))
        (fieldOr es "unique" (.ok false) flag))
      (fieldOr es "references" (.ok none) (orNull ForeignKey.read))

def Index.read : Value → Read Index :=
  readModel "IndexSpec" ["name", "columns", "unique", "where"] fun es =>
    both (· ·)
      (both (· ·)
        (both Index.mk
          (fieldOr es "name" (fail .missing) Read.name)
          (fieldOr es "columns" (fail .missing) fun v => someItems (readWords v)))
        (fieldOr es "unique" (.ok false) flag))
      (fieldOr es "where" (.ok none) (orNull text))

def Table.read (fs : Functions) : Value → Read Table :=
  readModel "TableSpec" ["name", "columns", "primary_keys", "indexes", "description"] fun es =>
    both (· ·)
      (both (· ·)
        (both (· ·)
          (both Table.mk
            (fieldOr es "name" (fail .missing) Read.name)
            (fieldOr es "columns" (fail .missing) fun v => someItems (list (Column.read fs) v)))
          (fieldOr es "primary_keys" (.ok []) readWords))
        (fieldOr es "indexes" (.ok []) (list Index.read)))
      (fieldOr es "description" (.ok none) (orNull text))

end Tablewright
