namespace Tablewright

/-- The way to a file or a folder: its names in order. A path with a root does not depend on where
it is read. -/
structure Path where
  root : String
  names : List String
  deriving DecidableEq, Repr, Inhabited

namespace Path

/-- The parts of a text between slashes. Two slashes in front, and no more, are a root of their
own. -/
def ofText (s : String) : Path :=
  let slashes := (s.toList.takeWhile (· = '/')).length
  let root := if slashes = 0 then "" else if slashes = 2 then "//" else "/"
  let names := (s.toList.splitOn '/').map String.ofList
  ⟨root, names.filter fun n => n ≠ "" && n ≠ "."⟩

def text (p : Path) : String :=
  if p.root.isEmpty && p.names.isEmpty then "." else p.root ++ "/".intercalate p.names

def isAbsolute (p : Path) : Bool := !p.root.isEmpty

def under (p base : Path) : Path :=
  if p.isAbsolute then p else { base with names := base.names ++ p.names }

def child (p : Path) (name : String) : Path := { p with names := p.names ++ [name] }

end Path

/-- What a folder holds under a name: the bytes of a file, or a folder. -/
inductive Entry
  | file (bytes : List UInt8)
  | folder (entries : List (String × Entry))
  deriving Inhabited

namespace Entry

def entries : Entry → List (String × Entry)
  | file _ => []
  | folder es => es

def at? (e : Entry) : List String → Option Entry
  | [] => some e
  | name :: names =>
    match e.entries.lookup name with
    | some inner => inner.at? names
    | none => none

def readBreaks : List Char → List Char
  | '\r' :: '\n' :: cs => '\n' :: readBreaks cs
  | '\r' :: cs => '\n' :: readBreaks cs
  | c :: cs => c :: readBreaks cs
  | [] => []

def text? : Entry → Option (List Char)
  | file bytes => (String.fromUTF8? ⟨bytes.toArray⟩).map fun s => readBreaks s.toList
  | folder _ => none

def namesWith (e : Entry) (ending : String) : List String :=
  ((e.entries.map (·.1)).filter (ending.toList.isSuffixOf ·.toList)).mergeSort (decide <| · ≤ ·)

def put (name : String) (inner : Entry) : Entry → Entry
  | file bytes => .file bytes
  | folder es => .folder ((name, inner) :: es.filter (·.1 != name))

def remove (name : String) : Entry → Entry
  | file bytes => .file bytes
  | folder es => .folder (es.filter (·.1 != name))

end Entry

end Tablewright
