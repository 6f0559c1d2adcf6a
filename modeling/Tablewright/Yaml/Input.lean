namespace Tablewright.Yaml

structure Input where
  rest : List Char
  index : Nat
  line : Nat
  column : Nat
  deriving Inhabited

def isBreak (c : Char) : Bool := c == '\n' || c == '\x85' || c == '\u2028' || c == '\u2029'

def isGap (c : Char) : Bool := c == ' ' || c == '\t'

def endsLine : Option Char → Bool
  | none => true
  | some c => isBreak c

def endsWord : Option Char → Bool
  | none => true
  | some c => isBreak c || isGap c

def endsItem : Option Char → Bool
  | none => true
  | some c => isBreak c || c == ' '

def orderMark : Char := '\ufeff'

namespace Input

def ofChars (cs : List Char) : Input := ⟨cs, 0, 0, 0⟩

def peek (i : Input) : Option Char := i.rest.head?

def peekAt (i : Input) (n : Nat) : Option Char := i.rest[n]?

def isAt (i : Input) (c : Char) : Bool := i.peek == some c

def next (i : Input) : Input :=
  match i.rest with
  | [] => i
  | c :: cs =>
    if isBreak c then ⟨cs, i.index + 1, i.line + 1, 0⟩
    else ⟨cs, i.index + 1, i.line, if c = orderMark then i.column else i.column + 1⟩

def skip (i : Input) : Nat → Input
  | 0 => i
  | n + 1 => i.next.skip n

def span (i : Input) (p : Char → Bool) : List Char × Input :=
  let cs := i.rest.takeWhile p
  (cs, i.skip cs.length)

def skipWhile (i : Input) (p : Char → Bool) : Input := (i.span p).2

def skipBlanks (i : Input) : Input := i.skipWhile (· == ' ')

/-- A line break is read as a line feed, unless it separates lines or paragraphs. -/
def takeBreak? (i : Input) : Option (Char × Input) :=
  match i.peek with
  | some c =>
    if c = '\n' || c = '\x85' then some ('\n', i.next)
    else if c = '\u2028' || c = '\u2029' then some (c, i.next)
    else none
  | none => none

def isMarker (i : Input) (c : Char) : Bool :=
  i.rest.take 3 == [c, c, c] && endsWord (i.peekAt 3)

def isDocumentMarker (i : Input) : Bool := i.isMarker '-' || i.isMarker '.'

def skipComment (i : Input) : Input :=
  if i.isAt '#' then i.skipWhile (!isBreak ·) else i

def endLine? (i : Input) : Option Input :=
  let i := i.skipBlanks.skipComment
  if endsLine i.peek then some ((i.takeBreak?.map (·.2)).getD i) else none

end Input

end Tablewright.Yaml
