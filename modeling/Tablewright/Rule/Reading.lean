import Tablewright.Reading
import Tablewright.Rule.Basic

namespace Tablewright.Rule

open Read

def readStrictText : Value → Read String
  | .text s => .ok s
  | _ => fail .notText

def readLength (v : Value) : Read Nat :=
  match ofCoerced (Coercion.toInt v) with
  | .error es => .error es
  | .ok n => if n < 0 then fail (.belowMinimum "0") else .ok n.toNat

def strictNumber? : Value → Option Number
  | .int n => some (.int n)
  | .float x => some (.float x)
  | .decimal d => d.toFloat?.map .float
  | _ => none

def readBound (v : Value) : Read Number :=
  match strictNumber? v with
  | none => .error [⟨.notInt, [.key "int"]⟩, ⟨.notFloat, [.key "float"]⟩]
  | some (.float x) =>
    if x.isFinite then .ok (.float x)
    else fail (.refused ("numeric bounds must be finite, got " ++ x.text))
  | some n => .ok n

def readLiteral (v : Value) : Read Literal :=
  match v with
  | .null => .ok .null
  | .bool b => .ok (.bool b)
  | .text s => .ok (.text s)
  | _ =>
    match strictNumber? v with
    | some (.int n) => .ok (.int n)
    | some (.float x) => .ok (.float x)
    | none => .error
        [⟨.notBool, [.key "bool"]⟩, ⟨.notInt, [.key "int"]⟩, ⟨.notFloat, [.key "float"]⟩,
          ⟨.notText, [.key "str"]⟩]

def checkEnum (values : List String) : Read (List String) :=
  if values.isEmpty then fail (.refused "enum requires at least one value")
  else if values.eraseDups.length ≠ values.length then
    fail (.refused ("enum values must be unique: " ++ (Value.list (values.map .text)).written))
  else .ok values

def unbounded? : Literal → Option Binary64
  | .float x => if x.isFinite then none else some x
  | _ => none

def checkLiterals (values : List Literal) : Read (List Literal) :=
  if values.isEmpty then fail (.refused "literal requires at least one value")
  else match values.findSome? unbounded? with
    | some x => fail (.refused ("literal values must be finite, got " ++ x.text))
    | none => .ok values

/-- Dates, times and durations have no length. -/
def checkString (r : StringRule) : Read StringRule :=
  match r.format with
  | some f =>
    if f.isTemporal && r.hasLengthBounds then
      fail (.refused ("length bounds are not supported on '" ++ f.text ++ "' strings"))
    else .ok r
  | none => .ok r

def readString (entries : Entries) : Read StringRule :=
  let length (name : String) := fieldOr entries name (.ok none) (orNull readLength)
  both (· ·)
    (both (· ·)
      (both StringRule.mk
        (fieldOr entries "format" (.ok none)
          (orNull (choice StringFormat.all StringFormat.text)))
        (length "min_length"))
      (length "max_length"))
    (length "exact_length")

def readNumber (entries : Entries) : Read NumberRule :=
  let bound (name : String) := fieldOr entries name (.ok none) (orNull readBound)
  both (· ·)
    (both (· ·)
      (both (· ·)
        (both NumberRule.mk
          (fieldOr entries "format" (.ok .number)
            (choice NumberFormat.all NumberFormat.text))
          (bound "minimum"))
        (bound "maximum"))
      (bound "exclusive_minimum"))
    (bound "exclusive_maximum")

def fieldNames : Kind → List String
  | .optional | .nullable => ["inner"]
  | .default => ["inner", "value", "factory"]
  | .string => ["format", "min_length", "max_length", "exact_length"]
  | .number => ["format", "minimum", "maximum", "exclusive_minimum", "exclusive_maximum"]
  | .enum | .literal => ["values"]
  | .union => ["options"]
  | .array => ["items"]
  | .object => ["shape"]
  | .boolean | .bigint | .null | .undefined | .blob | .any => []

def finish (kind : Kind) (entries : Entries) (r : Read α) : Read α :=
  r.andIssues (entries.unknown ("refinements" :: "kind" :: fieldNames kind))

def readScalar (entries : Entries) : Kind → Read Scalar
  | .string => (readString entries).map .string
  | .number => (readNumber entries).map .number
  | .enum => (fieldOr entries "values" (fail .missing)
      (fun v => (tuple readStrictText v).bind checkEnum)).map .enum
  | .literal => (fieldOr entries "values" (fail .missing)
      (fun v => (tuple readLiteral v).bind checkLiterals)).map .literal
  | .boolean => .ok .boolean
  | .bigint => .ok .bigint
  | .null => .ok .null
  | .undefined => .ok .undefined
  | .blob => .ok .blob
  | _ => .ok .any

def checkScalar : Scalar → Read Scalar
  | .string r => (checkString r).map .string
  | s => .ok s

def readKind (entries : Entries) : Read Kind :=
  match Value.field? entries "kind" with
  | none => fail .noTag
  | some (.text s) =>
    match Kind.ofText? s with
    | some k => .ok k
    | none => fail (.unknownTag s (Kind.all.map Kind.text))
  | some v => fail (.unknownTag v.display (Kind.all.map Kind.text))

/-- When no option of a union could be read, the complaint that there is none comes last. -/
def checkOptions (options : List (Read Rule)) (read : Read (List Rule)) : Read (List Rule) :=
  if options.all (fun | .ok _ => false | .error _ => true) then
    read.andIssues [.here (.tooFew .tuple)]
  else read

/-- Give a name of a shape its rule: an old name keeps its place, a new one comes last. -/
def setPart (name : String) (r : Rule) : List (String × Rule) → List (String × Rule)
  | [] => [(name, r)]
  | (n, q) :: rest => if n = name then (n, r) :: rest else (n, q) :: setPart name r rest

/-- A shape from the rules that were read. Of keys that are read as one name the last counts. -/
def shapeOf (parts : List (String × Rule)) : List (String × Rule) :=
  parts.foldl (fun shape (name, r) => setPart name r shape) []

section

variable (fs : Functions)

def readCallable : Value → Read Callable
  | .function slot => .ok (fs.callable slot)
  | _ => fail .notCallable

def readRefinement (v : Value) : Read Refinement :=
  match v with
  | .dict entries =>
    both Refinement.mk
      (fieldOr entries "predicate" (fail .missing) (readCallable fs))
      (fieldOr entries "message" (.ok "Invalid value") text)
  | _ => fail (.notModel "Refinement")

def readChecks (entries : Entries) : Read (List Refinement) :=
  fieldOr entries "refinements" (.ok []) (tuple (readRefinement fs))

def readFactory (entries : Entries) : Read (Option Callable) :=
  fieldOr entries "factory" (.ok none) (orNull (readCallable fs))

mutual

def read (v : Value) : Read Rule :=
  match v with
  | .dict entries =>
    match readKind entries with
    | .error es => .error es
    | .ok kind => under (.key kind.text) (readNode kind entries)
  | _ => fail .notFields
termination_by 2 * sizeOf v
decreasing_by all_goals (simp_all; try omega)

def readNode (kind : Kind) (entries : List (Value × Value)) : Read Rule :=
  let checks := readChecks fs entries
  match kind with
  | .optional =>
    finish kind entries (both (Rule.layer · .optional ·) checks (readField entries "inner"))
  | .nullable =>
    finish kind entries (both (Rule.layer · .nullable ·) checks (readField entries "inner"))
  | .default =>
    let value := (Value.field? entries "value").getD .null
    finish kind entries
      (both (fun (cs, r) f => Rule.layer cs (.default value f) r)
        (both Prod.mk checks (readField entries "inner")) (readFactory fs entries))
  | .union =>
    finish kind entries (both Rule.union checks
      (under (.key "options")
        (match Entries.below? entries "options" with
        | none => fail .missing
        | some ⟨.list xs, _⟩ =>
          let options := readAll xs
          checkOptions options (sequence 0 options)
        | some ⟨.tuple xs, _⟩ =>
          let options := readAll xs
          checkOptions options (sequence 0 options)
        | some ⟨.set xs, _⟩ =>
          let options := readAll xs
          checkOptions options (sequence 0 options)
        | some _ => fail .notTuple)))
  | .array => finish kind entries (both Rule.array checks (readField entries "items"))
  | .object =>
    finish kind entries (both Rule.object checks
      (under (.key "shape")
        (match Entries.below? entries "shape" with
        | none => fail .missing
        | some ⟨.dict shape, _⟩ => (readShape shape).map shapeOf
        | some _ => fail .notDict)))
  | _ =>
    (finish kind entries (both Prod.mk checks (readScalar entries kind))).bind fun (cs, s) =>
      (checkScalar s).map (Rule.scalar cs)
termination_by 2 * sizeOf entries + 1
decreasing_by all_goals (simp_all; try omega)

def readField (entries : List (Value × Value)) (name : String) : Read Rule :=
  under (.key name)
    (match Entries.below? entries name with
    | none => fail .missing
    | some ⟨v, _⟩ => read v)
termination_by 2 * sizeOf entries
decreasing_by all_goals (simp_all; try omega)

def readAll (vs : List Value) : List (Read Rule) :=
  match vs with
  | [] => []
  | v :: vs => read v :: readAll vs
termination_by 2 * sizeOf vs
decreasing_by all_goals (simp_all; try omega)

def readShape (shape : List (Value × Value)) : Read (List (String × Rule)) :=
  match shape with
  | [] => .ok []
  | (k, v) :: rest =>
    both (· :: ·)
      (both Prod.mk (under (Entries.step k) (under (.key "[key]") (text k)))
        (under (Entries.step k) (read v)))
      (readShape rest)
termination_by 2 * sizeOf shape
decreasing_by all_goals (simp_all; try omega)

end

end

end Tablewright.Rule
