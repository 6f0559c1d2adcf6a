import Tablewright.Rule.Basic

namespace Tablewright.Sql

inductive Storage
  | text | integer | real | float | blob | boolean | bigint | date | datetime | null
  deriving DecidableEq, Repr, Inhabited

namespace Storage

def all : List Storage :=
  [.text, .integer, .real, .float, .blob, .boolean, .bigint, .date, .datetime, .null]

def word : Storage → String
  | .text => "TEXT"
  | .integer => "INTEGER"
  | .real => "REAL"
  | .float => "FLOAT"
  | .blob => "BLOB"
  | .boolean => "BOOLEAN"
  | .bigint => "BIGINT"
  | .date => "DATE"
  | .datetime => "DATETIME"
  | .null => "NULL"

def ofWord? (word : String) : Option Storage := all.find? (·.word == word)

@[simp]
theorem ofWord?_word (s : Storage) : ofWord? s.word = some s := by
  cases s <;> decide +kernel

def isTextual : Storage → Bool
  | .text | .date | .datetime => true
  | _ => false

def isNumeric : Storage → Bool
  | .integer | .real | .float => true
  | _ => false

end Storage

def stringStorage : Option StringFormat → Storage
  | some .date => .date
  | some .datetime => .datetime
  | some .duration => .integer
  | some .email | some .url | some .uuid | none => .text

def numberStorage : NumberFormat → Storage
  | .int32 | .uint32 | .safeint => .integer
  | .float32 | .float64 => .float
  | .number => .real

def scalarStorage? : Scalar → Option Storage
  | .string r => some (stringStorage r.format)
  | .number r => some (numberStorage r.format)
  | .enum _ | .literal _ => some .text
  | .boolean => some .boolean
  | .bigint => some .bigint
  | .null | .undefined => some .null
  | .blob => some .blob
  | .any => none

def storage? : Rule → Option Storage
  | .scalar _ s => scalarStorage? s
  | .union .. | .array .. | .object .. => some .text
  | .layer .. => none

def storage (r : Rule) : Storage := (storage? r).getD .text

end Tablewright.Sql
