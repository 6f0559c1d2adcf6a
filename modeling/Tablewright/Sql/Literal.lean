import Tablewright.Value.Display

namespace Tablewright.Sql

def encode : List Char → List Char
  | [] => []
  | c :: cs => if c = '\'' then '\'' :: '\'' :: encode cs else c :: encode cs

@[simp]
theorem encode_append (xs ys : List Char) : encode (xs ++ ys) = encode xs ++ encode ys := by
  induction xs with
  | nil => rfl
  | cons x xs ih => simp only [List.cons_append, encode, ih]; split <;> simp

def quoted (v : Value) : String :=
  String.ofList ('\'' :: encode v.storedText.toList ++ ['\''])

def hasBound : Number → Bool
  | .int n => hasNumeral n
  | .float _ => true

def bound : Number → String
  | .int n => numeral n
  | .float x => x.text

def bare : Value → String
  | .bool b => if b then "1" else "0"
  | v => v.written

/-- A value in a comparison: numbers stand by themselves, the rest is quoted. -/
def literal : Value → String
  | .null => "NULL"
  | .bool b => bare (.bool b)
  | .int n => bare (.int n)
  | .float x => bare (.float x)
  | v => quoted v

end Tablewright.Sql
