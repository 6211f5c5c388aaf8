/-!
# Bytes in base 64

Four characters of a 64-letter alphabet stand for three bytes. Other characters mean nothing. A last
group of two or three characters is filled up with padding signs, which end the text; without them
it is not accepted.
-/

namespace GrammarCoverage.Text.Base64

/-- The value of a letter of the alphabet. -/
def letter? (c : Char) : Option Nat :=
  if 'A' ≤ c ∧ c ≤ 'Z' then some (c.toNat - 'A'.toNat)
  else if 'a' ≤ c ∧ c ≤ 'z' then some (c.toNat - 'a'.toNat + 26)
  else if '0' ≤ c ∧ c ≤ '9' then some (c.toNat - '0'.toNat + 52)
  else if c = '+' then some 62
  else if c = '/' then some 63
  else none

/-- The whole bytes among the bits of a group of letters. -/
def groupBytes : List Nat → List Nat
  | [a, b] => [4 * a + b / 16]
  | [a, b, c] => [4 * a + b / 16, 16 * (b % 16) + c / 4]
  | [a, b, c, d] => [4 * a + b / 16, 16 * (b % 16) + c / 4, 64 * (c % 4) + d]
  | _ => []

/-- The bytes after an unfinished group, which a number of padding signs follow already. -/
def decodeFrom (group : List Nat) (pads : Nat) : List Char → Option (List Nat)
  | [] => if group.isEmpty then some [] else none
  | c :: rest =>
    if c = '=' then
      if group.length < 2 then decodeFrom group pads rest
      else if 4 ≤ group.length + pads + 1 then some (groupBytes group)
      else decodeFrom group (pads + 1) rest
    else
      match letter? c with
      | none => decodeFrom group pads rest
      | some n =>
        let group := group ++ [n]
        if group.length < 4 then decodeFrom group 0 rest
        else (decodeFrom [] 0 rest).map (groupBytes group ++ ·)

def decode (cs : List Char) : Option (List UInt8) :=
  (decodeFrom [] 0 cs).map (·.map Nat.toUInt8)

end GrammarCoverage.Text.Base64
