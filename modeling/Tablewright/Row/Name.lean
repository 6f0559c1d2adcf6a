import Tablewright.Numeric.Notation
import Tablewright.Text.Alphanumeric
import Tablewright.Text.Identifier
import Tablewright.Text.Upper

namespace Tablewright.Row

def keywords : List String :=
  ["False", "None", "True", "and", "as", "assert", "async", "await", "break", "class", "continue",
    "def", "del", "elif", "else", "except", "finally", "for", "from", "global", "if", "import",
    "in", "is", "lambda", "nonlocal", "not", "or", "pass", "raise", "return", "try", "while",
    "with", "yield"]

def modelNames : List String :=
  ["construct", "copy", "dict", "from_orm", "json", "model_computed_fields", "model_config",
    "model_construct", "model_copy", "model_dump", "model_dump_json", "model_extra",
    "model_fields", "model_fields_set", "model_json_schema", "model_parametrized_name",
    "model_post_init", "model_rebuild", "model_validate", "model_validate_json",
    "model_validate_strings", "mro", "parse_file", "parse_obj", "parse_raw", "register", "schema",
    "schema_json", "update_forward_refs", "validate"]

def isUsable (name : String) : Bool :=
  isIdentifier name.toList && !keywords.contains name && !name.startsWith "_"
    && !modelNames.contains name

def avoid (taken : List String) (name : String) : String :=
  if name ∈ taken then avoid (taken.erase name) (name ++ "_") else name
termination_by taken.length
decreasing_by
  rename_i h
  have := List.length_pos_of_mem h
  rw [List.length_erase_of_mem h]
  omega

theorem length_le_length_avoid (taken : List String) (name : String) :
    name.length ≤ (avoid taken name).length := by
  fun_induction avoid taken name with
  | case1 taken name h ih => rw [String.length_append] at ih; omega
  | case2 => exact Nat.le_refl _

/-- The search ends at a free name: a taken one is never met again, as names only grow. -/
theorem avoid_notMem (taken : List String) (name : String) : avoid taken name ∉ taken := by
  fun_induction avoid taken name with
  | case1 taken name h ih =>
    intro hm
    refine ih ((List.mem_erase_of_ne ?_).2 hm)
    intro he
    have hl := length_le_length_avoid (taken.erase name) (name ++ "_")
    rw [he, String.length_append] at hl
    have : "_".length = 1 := rfl
    omega
  | case2 taken name h => exact h

/-- The name of a field, and the key of its column in a row when that is another name. -/
structure FieldName where
  field : String
  key : Option String
  deriving DecidableEq, Repr, Inhabited

def FieldName.column (n : FieldName) : String := n.key.getD n.field

def namesFrom (taken : List String) (position : Nat) : List String → List FieldName
  | [] => []
  | name :: rest =>
    if isUsable name then ⟨name, none⟩ :: namesFrom taken (position + 1) rest
    else
      let field := avoid taken ("column_" ++ Nat.repr position)
      ⟨field, some name⟩ :: namesFrom (field :: taken) (position + 1) rest

theorem map_column_namesFrom (taken : List String) (position : Nat) (columns : List String) :
    (namesFrom taken position columns).map FieldName.column = columns := by
  induction columns generalizing taken position with
  | nil => rfl
  | cons c cs ih =>
    rw [namesFrom]
    split <;> rw [List.map_cons, ih] <;> rfl

/-- One field name for each column: its own name when usable, and otherwise a numbered one that no
other field has. -/
def fieldNames (columns : List String) : List FieldName :=
  namesFrom (columns.filter isUsable) 0 columns

@[simp]
theorem map_column_fieldNames (columns : List String) :
    (fieldNames columns).map FieldName.column = columns :=
  map_column_namesFrom _ _ _

def runs : List Char → List (List Char)
  | [] => []
  | c :: cs =>
    if isLetterOrNumber c then
      match runs cs, cs with
      | run :: rest, d :: _ => if isLetterOrNumber d then (c :: run) :: rest else [c] :: run :: rest
      | rest, _ => [c] :: rest
    else runs cs

def capitalize : List Char → List Char
  | [] => []
  | c :: cs => upperChar c ++ cs

/-- A name for a model: the runs of letters and numbers joined, each with a capital. -/
def pascal (name : String) : String :=
  match (runs name.toList).flatMap capitalize with
  | [] => "Row"
  | cs => String.ofList cs

end Tablewright.Row
