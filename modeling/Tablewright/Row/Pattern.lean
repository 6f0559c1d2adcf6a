import Tablewright.Rule.Basic
import Tablewright.Text.Blank

namespace Tablewright.Row

/-- The formats of text that are told by their characters. -/
inductive Pattern
  | email | url | uuid
  deriving DecidableEq, Repr, Inhabited

namespace Pattern

def ofFormat? : StringFormat → Option Pattern
  | .email => some .email
  | .url => some .url
  | .uuid => some .uuid
  | _ => none

def text : Pattern → String
  | .email => "^[A-Za-z0-9._%+'-]+@[A-Za-z0-9-]+(\\.[A-Za-z0-9-]+)*\\.[A-Za-z]\x7b2,\x7d$"
  | .url => "^[A-Za-z][A-Za-z0-9+.-]*://[^\\s/?#]+[^\\s]*$"
  | .uuid =>
    "^[0-9a-fA-F]\x7b8\x7d-[0-9a-fA-F]\x7b4\x7d-[0-9a-fA-F]\x7b4\x7d-[0-9a-fA-F]\x7b4\x7d"
      ++ "-[0-9a-fA-F]\x7b12\x7d$"

def isLocalChar (c : Char) : Bool :=
  c.isAlphanum || c == '.' || c == '_' || c == '%' || c == '+' || c == '\'' || c == '-'

def isLabelChar (c : Char) : Bool := c.isAlphanum || c == '-'

def splitAt (separator : Char) : List Char → List (List Char)
  | [] => [[]]
  | c :: cs =>
    if c = separator then [] :: splitAt separator cs
    else match splitAt separator cs with
      | [] => [[c]]
      | part :: parts => (c :: part) :: parts

def isLabel (cs : List Char) : Bool := !cs.isEmpty && cs.all isLabelChar

def isTopLabel (cs : List Char) : Bool := 2 ≤ cs.length && cs.all Char.isAlpha

def isDomain (cs : List Char) : Bool :=
  match (splitAt '.' cs).reverse with
  | top :: label :: labels => isTopLabel top && (label :: labels).all isLabel
  | _ => false

def isEmail (cs : List Char) : Bool :=
  match splitAt '@' cs with
  | [localPart, domain] => !localPart.isEmpty && localPart.all isLocalChar && isDomain domain
  | _ => false

def isSchemeChar (c : Char) : Bool := c.isAlphanum || c == '+' || c == '.' || c == '-'

def isLocation : List Char → Bool
  | [] => false
  | c :: cs =>
    c != '/' && c != '?' && c != '#' && !isWhiteSpace c && cs.all (!isWhiteSpace ·)

def isUrl : List Char → Bool
  | [] => false
  | c :: cs =>
    c.isAlpha && match cs.dropWhile isSchemeChar with
      | ':' :: '/' :: '/' :: rest => isLocation rest
      | _ => false

def isHexDigit (c : Char) : Bool := c.isDigit || ('a' ≤ c && c ≤ 'f') || ('A' ≤ c && c ≤ 'F')

def isUuid (cs : List Char) : Bool :=
  cs.length = 36 && cs.zipIdx.all fun (c, i) =>
    if i = 8 || i = 13 || i = 18 || i = 23 then c == '-' else isHexDigit c

def accepts : Pattern → List Char → Bool
  | .email => isEmail
  | .url => isUrl
  | .uuid => isUuid

end Pattern

end Tablewright.Row
