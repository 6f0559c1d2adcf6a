import Tablewright.Coercion
import Tablewright.Reading
import Tablewright.Row.Model

namespace Tablewright.Row

/-- How well a value fits: how exactly, and how many fields of objects were given, when there are
objects in it. -/
structure Fit where
  exactness : Exactness
  given : Option Nat
  deriving DecidableEq, Repr, Inhabited

namespace Fit

def ofExactness (e : Exactness) : Fit := ⟨e, none⟩

def exact : Fit := ofExactness .exact

def addGiven : Option Nat → Option Nat → Option Nat
  | some a, some b => some (a + b)
  | some a, none => some a
  | none, b => b

def both (a b : Fit) : Fit := ⟨a.exactness.worst b.exactness, addGiven a.given b.given⟩

def isDecisive (f : Fit) : Bool := f.exactness = .exact && f.given.isNone

def improves (new old : Fit) : Bool :=
  match old.given, new.given with
  | some m, some n => if m = n then new.exactness.betterThan old.exactness else m < n
  | _, _ => new.exactness.betterThan old.exactness

end Fit

abbrev Judgement := Except Issues (Value × Fit)

def reject (c : Cause) : Judgement := .error [.here c]

def settle (wrap : α → Value) (against : α → Option Cause) : Coerced α → Judgement
  | .error c => reject c
  | .ok (a, e) =>
    match against a with
    | some c => reject c
    | none => .ok (wrap a, .ofExactness e)

def firstFailing : List (Bool × Cause) → Option Cause
  | [] => none
  | (ok, c) :: rest => if ok then firstFailing rest else some c

def againstText (l : TextLimits) (s : String) : Option Cause :=
  firstFailing
    ((l.least.map fun n => (decide (n ≤ s.length), Cause.textTooShort n)).toList
      ++ (l.most.map fun n => (decide (s.length ≤ n), Cause.textTooLong n)).toList
      ++ (l.pattern.map fun p => (p.accepts s.toList, Cause.patternMismatch p.text)).toList)

/-- Limits are checked from above first, and inclusive ones before exclusive ones. -/
def againstLimits (number : α → Number) (shown : α → String) (l : Limits α) (x : α) :
    Option Cause :=
  let le (a b : α) : Bool := (number a).le (number b)
  let lt (a b : α) : Bool := (number a).lt (number b)
  firstFailing
    ((l.most.map fun b => (le x b, Cause.aboveMaximum (shown b))).toList
      ++ (l.below.map fun b => (lt x b, Cause.notBelow (shown b))).toList
      ++ (l.least.map fun b => (le b x, Cause.belowMinimum (shown b))).toList
      ++ (l.above.map fun b => (lt b x, Cause.notAbove (shown b))).toList)

def againstInt (l : Limits Int) : Int → Option Cause := againstLimits .int numeral l

def againstFloat (l : Limits Binary64) (x : Binary64) : Option Cause :=
  if x.isFinite then againstLimits .float Binary64.plain l x else some .notFinite

def isExactly (v : Value) : Literal → Bool
  | .bool a => match v with | .bool b => a == b | _ => false
  | .int m => match v with | .int n => m = n && m.natAbs < Coercion.wordLimit | _ => false
  | .text s => v.isText s
  | .null | .float _ => false

def literalNumber? : Literal → Option Number
  | .bool b => some (.int (if b then 1 else 0))
  | .int n => some (.int n)
  | .float x => some (.float x)
  | .null | .text _ => none

/-- Whether a listed value denotes the same number as a value, or both are null. -/
def denotesSame (v : Value) (l : Literal) : Bool :=
  match v, l with
  | .null, .null => true
  | .decimal d, _ => (literalNumber? l).any d.same
  | _, _ =>
    match v.number?, literalNumber? l with
    | some m, some n => m.same n
    | _, _ => false

def isLoose : Literal → Bool
  | .null | .float _ => true
  | .int n => Coercion.wordLimit ≤ n.natAbs
  | .bool _ | .text _ => false

/-- The listed value that a value stands for. One of the same type is preferred; of several that
denote the same number the last one is found. -/
def findListed (values : List Literal) (v : Value) : Option Literal :=
  match values.find? (isExactly v) with
  | some l => some l
  | none =>
    let (loose, firm) := values.partition isLoose
    match loose.reverse.find? (denotesSame v) with
    | some l => some l
    | none => firm.reverse.find? (denotesSame v)

def judgeListed (values : List Literal) (v : Value) : Judgement :=
  match findListed values v with
  | some l => .ok (l.toValue, .exact)
  | none => reject (.notListed (enumerate (values.map (·.toValue.written))))

def nothingAgainst (_ : α) : Option Cause := none

def judgeLeaf (s : Schema) (v : Value) : Judgement :=
  match s with
  | .text l => settle .text (againstText l) (Coercion.toText v)
  | .int l => settle .int (againstInt l) (Coercion.toInt v)
  | .float l => settle .float (againstFloat l) (Coercion.toFloat v)
  | .bool => settle .bool nothingAgainst (Coercion.toBool v)
  | .bytes => settle .bytes nothingAgainst (Coercion.toBytes v)
  | .date => settle .date nothingAgainst (Coercion.toDate v)
  | .datetime => settle .datetime nothingAgainst (Coercion.toDateTime v)
  | .duration => settle .duration nothingAgainst (Coercion.toDuration v)
  | .null => if v.isNull then .ok (.null, .exact) else reject .notNull
  | .listed values => judgeListed values v
  | _ => .ok (v, .ofExactness .lax)

/-- Ask a refinement about an accepted value. Some faults of its condition are complaints about the
value, the others end the run. -/
def judgeCheck (c : Refinement) (v : Value) (fit : Fit) : Run Judgement := fun calls =>
  match c.condition.ask v calls with
  | (.ok true, calls) => (.ok (.ok (v, fit)), calls)
  | (.ok false, calls) => (.ok (reject (.refused c.message)), calls)
  | (.error (.value text), calls) => (.ok (reject (.refused text)), calls)
  | (.error (.assertion text), calls) => (.ok (reject (.assertion text)), calls)
  | (.error (.invalid issues), calls) => (.ok (.error issues), calls)
  | (.error f, calls) => (.error f, calls)

/-- Two parts of a whole: both must be accepted, and the complaints of both are kept. -/
def joinParts (join : α → β → γ) :
    Except Issues (α × Fit) → Except Issues (β × Fit) → Except Issues (γ × Fit)
  | .ok (a, f), .ok (b, g) => .ok (join a b, f.both g)
  | .ok _, .error es => .error es
  | .error es, .ok _ => .error es
  | .error es, .error fs => .error (es ++ fs)

def judgeItems (judgeOne : Value → Run Judgement) (position : Nat) :
    List Value → Run (Except Issues (List Value × Fit))
  | [] => .pure (.ok ([], .exact))
  | v :: vs => do
    let first ← judgeOne v
    let rest ← judgeItems judgeOne (position + 1) vs
    return joinParts (· :: ·) (Read.under (.index position) first) rest

/-- The key under which a row gives a field, and the value there. A column's own name comes before
the name of its field. -/
def findField (n : FieldName) (entries : Entries) : Option (String × Value) :=
  match Value.field? entries n.column with
  | some v => some (n.column, v)
  | none => (Value.field? entries n.field).map (n.field, ·)

/-- An absent field is refused or takes its default, which is not judged. -/
def judgeAbsent (h : Head) : Run Judgement :=
  match h.absence with
  | .refused => .pure (.error [⟨.missing, [.key h.name.column]⟩])
  | .value v => .pure (.ok (v, .exact))
  | .factory f => do
    let v ← f.supply
    return .ok (v, .exact)

def countGiven : Judgement → Judgement
  | .ok (v, f) => .ok (v, ⟨f.exactness, Fit.addGiven (some 1) f.given⟩)
  | .error es => .error es

def judgeField (judgeOne : Value → Run Judgement) (h : Head) (entries : Entries) : Run Judgement :=
  match findField h.name entries with
  | none => judgeAbsent h
  | some (key, v) => do
    let result ← judgeOne v
    return Read.under (.key key) (countGiven result)

def insertColumn (name : String) (v : Value) : List (String × Value) → List (String × Value)
  | [] => [(name, v)]
  | (n, w) :: rest => if n = name then (n, v) :: rest else (n, w) :: insertColumn name v rest

def distinctColumns (columns : List (String × Value)) : List (String × Value) :=
  columns.foldl (fun done (n, v) => insertColumn n v done) []

def givenFields (fs : List (Head × Schema)) (entries : Entries) : List String :=
  (fs.filter fun f => (findField f.1.name entries).isSome).map (·.1.name.field)

def ofObject (given : List String) : Except Issues (List (String × Value) × Fit) → Judgement
  | .ok (columns, f) =>
    .ok (.record (distinctColumns columns) given, ⟨.lax, Fit.addGiven (some 0) f.given⟩)
  | .error es => .error es

def keepBest (best : Option (Value × Fit)) (new : Value × Fit) : Option (Value × Fit) :=
  match best with
  | some old => if new.2.improves old.2 then some new else some old
  | none => some new

def concludeOptions (best : Option (Value × Fit)) (issues : Issues) : Judgement :=
  match best with
  | some b => .ok b
  | none => .error issues

mutual

def judge : Schema → Value → Run Judgement
  | .nullable s => fun v => if v.isNull then .pure (.ok (.null, .exact)) else judge s v
  | .union ss => judgeOptions ss none []
  | .list s => fun v =>
    match Coercion.toItems v with
    | none => .pure (reject .notList)
    | some (xs, e) => do
      let items ← judgeItems (judge s) 0 xs
      return items.map fun (vs, f) => (.list vs, (Fit.ofExactness e).both f)
  | .object name fs => fun v =>
    match v with
    | .dict entries => do
      let columns ← judgeFields fs entries
      return ofObject (givenFields fs entries) columns
    | _ => .pure (reject (.notModel name))
  | .refined s c => fun v => do
    let inner ← judge s v
    match inner with
    | .ok (a, f) => judgeCheck c a f
    | .error es => return .error es
  | s => fun v => .pure (judgeLeaf s v)

/-- Try options in turn. The first decisive one is taken, else the best, else all complaints are
kept, each under the label of its option. -/
def judgeOptions :
    List Schema → Option (Value × Fit) → Issues → Value → Run Judgement
  | [], best, issues => fun _ => .pure (concludeOptions best issues)
  | s :: ss, best, issues => fun v => do
    let result ← judge s v
    match result with
    | .ok (a, f) =>
      if f.isDecisive then return .ok (a, f)
      else judgeOptions ss (keepBest best (a, f)) issues v
    | .error es => judgeOptions ss best (issues ++ es.underKey s.label) v

def judgeFields :
    List (Head × Schema) → Entries → Run (Except Issues (List (String × Value) × Fit))
  | [] => fun _ => .pure (.ok ([], .exact))
  | (h, s) :: fs => fun entries => do
    let first ← judgeField (judge s) h entries
    let rest ← judgeFields fs entries
    return joinParts (fun v columns => (h.name.column, v) :: columns) first rest

end

mutual

def dumped : Value → Value
  | .record fields _ => .dict (dumpedFields fields)
  | .list xs => .list (dumpedItems xs)
  | .tuple xs => .tuple (dumpedItems xs)
  | v => v

def dumpedItems : List Value → List Value
  | [] => []
  | v :: vs => dumped v :: dumpedItems vs

def dumpedFields : List (String × Value) → List (Value × Value)
  | [] => []
  | (n, v) :: fs => (.text n, dumped v) :: dumpedFields fs

end

namespace Model

def validate (m : Model) (row : Value) : Run (Except Issues (List (String × Value))) :=
  match row with
  | .dict entries => do
    let columns ← judgeFields m.fields entries
    return columns.map fun (cs, _) => (distinctColumns cs).map fun (n, v) => (n, dumped v)
  | _ => .pure (.error [.here (.notModel m.name)])

end Model

end Tablewright.Row
