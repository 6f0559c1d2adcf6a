import Tablewright.Value

namespace Tablewright.Log

/-- What is being worked on while records are written. A `null` field is absent. -/
structure Context where
  table : Value
  column : Value
  source : Value
  operation : Value
  extra : List (Value × Value)
  deriving Inhabited

/-- The fields that an inner context names; each one named replaces that of the outer context. -/
structure Entry where
  table : Option Value
  column : Option Value
  source : Option Value
  operation : Option Value
  extra : List (Value × Value)
  deriving Inhabited

namespace Entry

def none : Entry := ⟨.none, .none, .none, .none, []⟩

def ofTable (name operation : String) : Entry :=
  { none with table := some (.text name), operation := some (.text operation) }

def ofColumn (name : String) : Entry := { none with column := some (.text name) }

def ofSource (path operation : String) : Entry :=
  { none with source := some (.text path), operation := some (.text operation) }

def ofFields? (fields : List (Value × Value)) : Option Entry :=
  let field := Value.field? fields
  let entry (extra : List (Value × Value)) : Entry :=
    ⟨field "table", field "column", field "source", field "operation", extra⟩
  match field "extra" with
  | .none => some (entry [])
  | some (.dict extra) => some (entry extra)
  | some _ => .none

end Entry

namespace Context

def empty : Context := ⟨.null, .null, .null, .null, []⟩

def merge (outer inner : List (Value × Value)) : List (Value × Value) :=
  inner.foldl (fun entries (k, v) => Value.insertKey k v entries) outer

def enter (outer : Context) (e : Entry) : Context :=
  ⟨e.table.getD outer.table, e.column.getD outer.column, e.source.getD outer.source,
    e.operation.getD outer.operation, merge outer.extra e.extra⟩

@[simp]
theorem enter_none (c : Context) : c.enter .none = c := rfl

def withTable (c : Context) (name operation : String) : Context := c.enter (.ofTable name operation)

def withColumn (c : Context) (name : String) : Context := c.enter (.ofColumn name)

def fields (c : Context) : List (Value × Value) :=
  let named : List (Value × Value) :=
    [(.text "table", c.table), (.text "column", c.column), (.text "source", c.source),
      (.text "operation", c.operation)]
  merge (named.filter (!·.2.isNull)) c.extra

end Context

abbrev Scopes := List Context

namespace Scopes

def current (s : Scopes) : Context := s.headD .empty

def enter (s : Scopes) (e : Entry) : Scopes := s.current.enter e :: s

def leave (s : Scopes) : Scopes := s.tail

@[simp]
theorem leave_enter (s : Scopes) (e : Entry) : (s.enter e).leave = s := rfl

@[simp]
theorem current_enter (s : Scopes) (e : Entry) : (s.enter e).current = s.current.enter e := rfl

end Scopes

end Tablewright.Log
