import PubSub.Decimal.Digits

/-!
# Bytes written as text

Four characters of an alphabet of sixty-four stand for three bytes. Characters
outside the alphabet are passed over, and an equals sign that fills up a group
ends the text.
-/

namespace PubSub.Yaml.Binary

def bits? (c : Char) : Option Nat :=
  if 'A' ≤ c && c ≤ 'Z' then some (c.toNat - 65)
  else if 'a' ≤ c && c ≤ 'z' then some (c.toNat - 71)
  else if Decimal.isDigit c then some (c.toNat + 4)
  else if c = '+' then some 62
  else if c = '/' then some 63
  else none

def groupBytes : List Nat → List UInt8
  | a :: b :: rest =>
    (4 * a + b / 16).toUInt8 ::
      match rest with
      | c :: rest =>
        (b % 16 * 16 + c / 4).toUInt8 ::
          match rest with
          | d :: _ => [(c % 4 * 64 + d).toUInt8]
          | [] => []
      | [] => []
  | _ => []

/-- Reads on with the sixes of an open group and the equals signs since the last of them. A text
that ends inside a group is refused. -/
def decodeFrom (group : List Nat) (fill : Nat) : List Char → Option (List UInt8)
  | [] => if group.isEmpty then some [] else none
  | c :: rest =>
    if c = '=' then
      if 2 ≤ group.length && 4 ≤ group.length + fill + 1 then some (groupBytes group)
      else decodeFrom group (if 2 ≤ group.length then fill + 1 else fill) rest
    else
      match bits? c with
      | none => decodeFrom group fill rest
      | some six =>
        if group.length = 3 then (decodeFrom [] 0 rest).map (groupBytes (group ++ [six]) ++ ·)
        else decodeFrom (group ++ [six]) 0 rest

def decode? (cs : List Char) : Option (List UInt8) :=
  if cs.all (·.toNat < 128) then decodeFrom [] 0 cs else none

end PubSub.Yaml.Binary
