import Tablewright.Rule.Basic
import Tablewright.Sql.Literal

namespace Tablewright.Sql

inductive Condition
  | oneOf (values : List Value)
  | equals (value : Value)
  | atLeast (bound : Number)
  | atMost (bound : Number)
  | lengthAtLeast (n : Nat)
  | lengthAtMost (n : Nat)
  | lengthIs (n : Nat)
  deriving Inhabited

def Condition.text (column : String) : Condition → String
  | .oneOf values => column ++ " IN (" ++ ", ".intercalate (values.map literal) ++ ")"
  | .equals v => column ++ " = " ++ literal v
  | .atLeast b => column ++ " >= " ++ bound b
  | .atMost b => column ++ " <= " ++ bound b
  | .lengthAtLeast n => "length(" ++ column ++ ") >= " ++ Nat.repr n
  | .lengthAtMost n => "length(" ++ column ++ ") <= " ++ Nat.repr n
  | .lengthIs n => "length(" ++ column ++ ") = " ++ Nat.repr n

def Condition.isWritable : Condition → Bool
  | .oneOf values => values.all (·.isWritable)
  | .equals v => v.isWritable
  | .atLeast b | .atMost b => hasBound b
  | .lengthAtLeast n | .lengthAtMost n | .lengthIs n => hasNumeral n

def valueCondition : List Value → Condition
  | [v] => .equals v
  | vs => .oneOf vs

def lengthConditions (r : StringRule) : List Condition :=
  (r.minLength.map .lengthAtLeast).toList ++ (r.maxLength.map .lengthAtMost).toList
    ++ (r.exactLength.map .lengthIs).toList

/-- Exclusive bounds are left to the row validator. -/
def boundConditions (r : NumberRule) : List Condition :=
  (r.minimum.map .atLeast).toList ++ (r.maximum.map .atMost).toList

def conditions (r : Rule) : List Condition :=
  match r.leaf with
  | .scalar _ (.enum words) => [.oneOf (words.map .text)]
  | .scalar _ (.literal values) => [valueCondition (values.map Literal.toValue)]
  | .scalar _ (.number n) => boundConditions n
  | .scalar _ (.string s) => lengthConditions s
  | .union _ options =>
    if Rule.areLiterals options then
      [.oneOf ((Rule.literalValues options).map Literal.toValue)]
    else []
  | _ => []

def checkClause? (column : String) : List Condition → Option String
  | [] => none
  | cs => some ("CHECK(" ++ " AND ".intercalate (cs.map (·.text column)) ++ ")")

def check? (column : String) (r : Rule) : Option String := checkClause? column (conditions r)

end Tablewright.Sql
