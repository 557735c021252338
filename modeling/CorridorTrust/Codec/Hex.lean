import CorridorTrust.Text.Utf8
import CorridorTrust.Text.Quoted

namespace CorridorTrust.Hex

inductive Defect where
  | oddLength
  | badCharacter (c : Char) (position : Nat)
deriving DecidableEq, Repr

def Defect.message : Defect → String
  | .oddLength => "Odd number of digits"
  | .badCharacter c position =>
    "Invalid character " ++ Text.quotedChar c ++ " at position " ++ toString position

def encodeByte (b : UInt8) : List Char :=
  [Nat.digitChar (b.toNat / 16), Nat.digitChar (b.toNat % 16)]

def encode (bs : Bytes) : String := String.ofList (bs.flatMap encodeByte)

def digit (b : UInt8) (position : Nat) : Except Defect Nat :=
  let c := Char.ofNat b.toNat
  if '0' ≤ c ∧ c ≤ '9' then .ok (c.toNat - '0'.toNat)
  else if 'a' ≤ c ∧ c ≤ 'f' then .ok (c.toNat - 'a'.toNat + 10)
  else if 'A' ≤ c ∧ c ≤ 'F' then .ok (c.toNat - 'A'.toNat + 10)
  else .error (.badCharacter c position)

def decodeFrom (position : Nat) : Bytes → Except Defect Bytes
  | a :: b :: bs => do
    let high ← digit a position
    let low ← digit b (position + 1)
    let rest ← decodeFrom (position + 2) bs
    return (16 * high + low).toUInt8 :: rest
  | _ => .ok []

def decode (bs : Bytes) : Except Defect Bytes :=
  if bs.length % 2 = 1 then .error .oddLength else decodeFrom 0 bs

end CorridorTrust.Hex
