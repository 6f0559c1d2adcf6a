import Tablewright.Numeric.Notation

namespace Tablewright

inductive Step
  | key (name : String)
  | index (position : Int)
  deriving DecidableEq, Repr, Inhabited

inductive Sequence
  | list | tuple
  deriving DecidableEq, Repr

inductive Cause
  | missing
  | extraForbidden
  | invalidKey
  | notFields
  | notModel (name : String)
  | noTag
  | unknownTag (tag : String) (known : List String)
  | notChoice (choices : List String)
  | notText
  | notUnicode
  | textTooShort (least : Nat)
  | textTooLong (most : Nat)
  | patternMismatch (pattern : String)
  | notBool
  | unreadableBool
  | notInt
  | unreadableInt
  | intTooLong
  | fractionalInt
  | notFloat
  | unreadableFloat
  | notFinite
  | aboveMaximum (bound : String)
  | notBelow (bound : String)
  | belowMinimum (bound : String)
  | notAbove (bound : String)
  | notTuple
  | notList
  | notDict
  | tooFew (sequence : Sequence)
  | notCallable
  | refused (text : String)
  | assertion (text : String)
  | notListed (expected : String)
  | notNull
  | notBytes
  | notDate
  | unreadableDate
  | unreadableDateOrTime
  | inexactDate
  | notDateTime
  | unreadableDateTime
  | unreadableDateTimeOrDate
  | notDuration
  | unreadableDuration
  | other (code message : String)
  deriving DecidableEq, Repr, Inhabited

def enumerate (items : List String) : String :=
  match items.reverse with
  | [] => ""
  | [x] => x
  | x :: rest => ", ".intercalate rest.reverse ++ " or " ++ x

namespace Cause

def code : Cause → String
  | .missing => "missing"
  | .extraForbidden => "extra_forbidden"
  | .invalidKey => "invalid_key"
  | .notFields => "model_attributes_type"
  | .notModel _ => "model_type"
  | .noTag => "union_tag_not_found"
  | .unknownTag .. => "union_tag_invalid"
  | .notChoice _ => "enum"
  | .notText => "string_type"
  | .notUnicode => "string_unicode"
  | .textTooShort _ => "string_too_short"
  | .textTooLong _ => "string_too_long"
  | .patternMismatch _ => "string_pattern_mismatch"
  | .notBool => "bool_type"
  | .unreadableBool => "bool_parsing"
  | .notInt => "int_type"
  | .unreadableInt => "int_parsing"
  | .intTooLong => "int_parsing_size"
  | .fractionalInt => "int_from_float"
  | .notFloat => "float_type"
  | .unreadableFloat => "float_parsing"
  | .notFinite => "finite_number"
  | .aboveMaximum _ => "less_than_equal"
  | .notBelow _ => "less_than"
  | .belowMinimum _ => "greater_than_equal"
  | .notAbove _ => "greater_than"
  | .notTuple => "tuple_type"
  | .notList => "list_type"
  | .notDict => "dict_type"
  | .tooFew _ => "too_short"
  | .notCallable => "callable_type"
  | .refused _ => "value_error"
  | .assertion _ => "assertion_error"
  | .notListed _ => "literal_error"
  | .notNull => "none_required"
  | .notBytes => "bytes_type"
  | .notDate => "date_type"
  | .unreadableDate => "date_parsing"
  | .unreadableDateOrTime => "date_from_datetime_parsing"
  | .inexactDate => "date_from_datetime_inexact"
  | .notDateTime => "datetime_type"
  | .unreadableDateTime => "datetime_parsing"
  | .unreadableDateTimeOrDate => "datetime_from_date_parsing"
  | .notDuration => "time_delta_type"
  | .unreadableDuration => "time_delta_parsing"
  | .other code _ => code

def characters (n : Nat) : String :=
  Nat.repr n ++ (if n = 1 then " character" else " characters")

def message : Cause → String
  | .missing => "Field required"
  | .extraForbidden => "Extra inputs are not permitted"
  | .invalidKey => "Keys should be strings"
  | .notFields => "Input should be a valid dictionary or object to extract fields from"
  | .notModel name => "Input should be a valid dictionary or instance of " ++ name
  | .noTag => "Unable to extract tag using discriminator 'kind'"
  | .unknownTag tag known =>
    "Input tag '" ++ tag ++ "' found using 'kind' does not match any of the expected tags: "
      ++ ", ".intercalate (known.map fun k => "'" ++ k ++ "'")
  | .notChoice choices => "Input should be " ++ enumerate (choices.map fun c => "'" ++ c ++ "'")
  | .notText => "Input should be a valid string"
  | .notUnicode =>
    "Input should be a valid string, unable to parse raw data as a unicode string"
  | .textTooShort n => "String should have at least " ++ characters n
  | .textTooLong n => "String should have at most " ++ characters n
  | .patternMismatch p => "String should match pattern '" ++ p ++ "'"
  | .notBool => "Input should be a valid boolean"
  | .unreadableBool => "Input should be a valid boolean, unable to interpret input"
  | .notInt => "Input should be a valid integer"
  | .unreadableInt => "Input should be a valid integer, unable to parse string as an integer"
  | .intTooLong => "Unable to parse input string as an integer, exceeded maximum size"
  | .fractionalInt => "Input should be a valid integer, got a number with a fractional part"
  | .notFloat => "Input should be a valid number"
  | .unreadableFloat => "Input should be a valid number, unable to parse string as a number"
  | .notFinite => "Input should be a finite number"
  | .aboveMaximum b => "Input should be less than or equal to " ++ b
  | .notBelow b => "Input should be less than " ++ b
  | .belowMinimum b => "Input should be greater than or equal to " ++ b
  | .notAbove b => "Input should be greater than " ++ b
  | .notTuple => "Input should be a valid tuple"
  | .notList => "Input should be a valid list"
  | .notDict => "Input should be a valid dictionary"
  | .tooFew .list => "List should have at least 1 item after validation, not 0"
  | .tooFew .tuple => "Tuple should have at least 1 item after validation, not 0"
  | .notCallable => "Input should be callable"
  | .refused text => "Value error, " ++ text
  | .assertion text => "Assertion failed, " ++ text
  | .notListed expected => "Input should be " ++ expected
  | .notNull => "Input should be None"
  | .notBytes => "Input should be a valid bytes"
  | .notDate => "Input should be a valid date"
  | .unreadableDate => "Input should be a valid date in the format YYYY-MM-DD"
  | .unreadableDateOrTime => "Input should be a valid date or datetime"
  | .inexactDate =>
    "Datetimes provided to dates should have zero time - e.g. be exact dates"
  | .notDateTime => "Input should be a valid datetime"
  | .unreadableDateTime => "Input should be a valid datetime"
  | .unreadableDateTimeOrDate => "Input should be a valid datetime or date"
  | .notDuration => "Input should be a valid timedelta"
  | .unreadableDuration => "Input should be a valid timedelta"
  | .other _ message => message

end Cause

/-- A part of a value that was turned down, and why. -/
structure Issue where
  cause : Cause
  path : List Step
  deriving DecidableEq, Repr, Inhabited

namespace Issue

def here (cause : Cause) : Issue := ⟨cause, []⟩

def under (step : Step) (issue : Issue) : Issue := { issue with path := step :: issue.path }

end Issue

abbrev Issues := List Issue

namespace Issues

def under (step : Step) (issues : Issues) : Issues := issues.map (Issue.under step)

def underKey (name : String) (issues : Issues) : Issues := issues.under (.key name)

end Issues

def errorCount (count : Nat) (title : String) : String :=
  Nat.repr count ++ (if count = 1 then " validation error for " else " validation errors for ")
    ++ title

end Tablewright
