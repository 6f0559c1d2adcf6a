import Tablewright.Text.Digit

namespace Tablewright.Deployment

/-- What a deployment is asked for. A place or a database that is not given is the empty text. -/
structure Request where
  directory : String
  tables : List String
  database : String
  dryRun : Bool
  ifNotExists : Bool
  verbose : Bool
  deriving DecidableEq, Repr, Inhabited

inductive Flag
  | directory | table | database | dryRun | ifNotExists | verbose | help
  deriving DecidableEq, Repr

namespace Flag

def spellings : List (String × Flag) :=
  [("-h", help), ("--help", help), ("--tables-dir", directory), ("--table", table),
    ("--database", database), ("--dry-run", dryRun), ("--if-not-exists", ifNotExists),
    ("--verbose", verbose), ("-v", verbose)]

def takesValue : Flag → Bool
  | directory | table | database => true
  | dryRun | ifNotExists | verbose | help => false

end Flag

/-- An argument of the command line: a word, an option with the text that is attached to it, or
something that is neither. -/
inductive Argument
  | word (text : String)
  | option (flag : Flag) (attached : Option String)
  | cluster (flag : Flag) (letters : List Char)
  | stranger
  deriving DecidableEq, Repr

namespace Argument

def isNegativeNumber : List Char → Bool
  | '-' :: cs =>
    let isDigit (c : Char) := (digitValue? c).isSome
    match cs.dropWhile isDigit with
    | [] => !cs.isEmpty
    | '.' :: fraction => !fraction.isEmpty && fraction.all isDigit
    | _ => false
  | _ => false

def splitValue (s : String) : String × Option String :=
  match s.toList.span (· != '=') with
  | (name, _ :: text) => (String.ofList name, some (String.ofList text))
  | _ => (s, none)

/-- The options that an argument may mean: those that begin like it, or one letter with more
letters after it. -/
def candidates (s : String) : List Argument :=
  if s.startsWith "--" then
    let (name, attached) := splitValue s
    (Flag.spellings.filter fun (spelling, _) => spelling.startsWith name).map fun (_, flag) =>
      .option flag attached
  else
    let letter := String.ofList (s.toList.take 2)
    (Flag.spellings.filter (·.1 == letter)).map fun (_, flag) => .cluster flag (s.toList.drop 2)

def valued? (s : String) : Option Argument :=
  match splitValue s with
  | (name, some text) => (Flag.spellings.lookup name).map fun flag =>
    if name.startsWith "--" then .option flag (some text) else .cluster flag ('=' :: text.toList)
  | _ => none

def ofText? (s : String) : Option Argument :=
  if !s.startsWith "-" || s = "-" then some (.word s)
  else match Flag.spellings.lookup s, valued? s with
    | some flag, _ => some (.option flag none)
    | none, some a => some a
    | none, none =>
      match candidates s with
      | [a] => some a
      | _ :: _ :: _ => none
      | [] =>
        if isNegativeNumber s.toList || s.toList.contains ' ' then some (.word s)
        else some .stranger

def ofTexts? : List String → Option (List Argument)
  | [] => some []
  | s :: ss =>
    if s = "--" then some (.stranger :: ss.map .word)
    else match ofText? s, ofTexts? ss with
      | some a, some rest => some (a :: rest)
      | _, _ => none

end Argument

inductive Command
  | deploy (r : Request)
  | help
  | misuse
  deriving DecidableEq, Repr

namespace Command

def nothing : Request := ⟨"", [], "", false, false, false⟩

def setValue (flag : Flag) (text : String) (r : Request) : Request :=
  match flag with
  | .directory => { r with directory := text }
  | .table => { r with tables := r.tables ++ [text] }
  | .database => { r with database := text }
  | _ => r

def setFlag (flag : Flag) (r : Request) : Request :=
  match flag with
  | .dryRun => { r with dryRun := true }
  | .ifNotExists => { r with ifNotExists := true }
  | .verbose => { r with verbose := true }
  | _ => r

/-- The options that letters after a single dash stand for, and whether every letter stands for
one. No option is read past the first letter that stands for none, and no text can be attached. -/
def letterFlags? : List Char → Option (List Flag × Bool)
  | [] => some ([], true)
  | c :: cs =>
    if c = '-' || c = '=' then none
    else match Flag.spellings.lookup (String.ofList ['-', c]) with
      | none => some ([], false)
      | some flag => (letterFlags? cs).map fun (flags, areAll) => (flag :: flags, areAll)

def read (r : Request) (isClean : Bool) : List Argument → Command
  | [] => if isClean then .deploy r else .misuse
  | .word _ :: rest | .stranger :: rest => read r false rest
  | .option flag attached :: rest =>
    if flag.takesValue then
      match attached, rest with
      | some text, rest => read (setValue flag text r) isClean rest
      | none, .word text :: rest => read (setValue flag text r) isClean rest
      | none, _ => .misuse
    else if attached.isSome then .misuse
    else if flag = .help then .help
    else read (setFlag flag r) isClean rest
  | .cluster flag letters :: rest =>
    match letterFlags? letters with
    | none => .misuse
    | some (flags, areAll) =>
      if (flag :: flags).contains .help then .help
      else read ((flag :: flags).foldl (fun r f => setFlag f r) r) (isClean && areAll) rest

def ofArguments (arguments : List String) : Command :=
  match Argument.ofTexts? arguments with
  | some as => read nothing true as
  | none => .misuse

end Command

end Tablewright.Deployment
