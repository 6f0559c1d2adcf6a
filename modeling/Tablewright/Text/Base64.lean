namespace Tablewright.Base64

def sextet? (c : Char) : Option Nat :=
  if 'A' ≤ c ∧ c ≤ 'Z' then some (c.toNat - 'A'.toNat)
  else if 'a' ≤ c ∧ c ≤ 'z' then some (c.toNat - 'a'.toNat + 26)
  else if '0' ≤ c ∧ c ≤ '9' then some (c.toNat - '0'.toNat + 52)
  else if c = '+' then some 62
  else if c = '/' then some 63
  else none

def bytes : List Nat → List UInt8
  | a :: b :: rest => (4 * a + b / 16).toUInt8 :: match rest with
    | [] => []
    | c :: rest => (b % 16 * 16 + c / 4).toUInt8 :: match rest with
      | [] => []
      | d :: _ => [(c % 4 * 64 + d).toUInt8]
  | _ => []

/-- The bytes of a text in groups of four characters. Padding that fills a group ends the text;
other characters do not count. -/
def decodeFrom? (group : List Nat) (padding : Nat) : List Char → Option (List UInt8)
  | [] => if group.isEmpty then some [] else none
  | c :: cs =>
    if c = '=' then
      if group.length < 2 then decodeFrom? group padding cs
      else if 4 ≤ group.length + padding + 1 then some (bytes group)
      else decodeFrom? group (padding + 1) cs
    else match sextet? c with
      | none => decodeFrom? group padding cs
      | some n =>
        let group := group ++ [n]
        if group.length = 4 then (decodeFrom? [] 0 cs).map (bytes group ++ ·)
        else decodeFrom? group 0 cs

def decode? (s : String) : Option (List UInt8) :=
  if s.toList.all (·.toNat < 128) then decodeFrom? [] 0 s.toList else none

end Tablewright.Base64
