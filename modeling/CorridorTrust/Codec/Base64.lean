import CorridorTrust.Text.Utf8

/-!
Base64 in two alphabets: the standard one, padded, for signatures, and the one for addresses, without
padding, for public keys. Reading accepts what writing produces and nothing else: bits left over in
the last character must be zero.
-/

namespace CorridorTrust.Base64

structure Variant where
  plus : Char
  slash : Char
  padded : Bool
deriving DecidableEq, Repr

def standard : Variant := ⟨'+', '/', true⟩

def address : Variant := ⟨'-', '_', false⟩

def Variant.symbol (v : Variant) (n : Nat) : Char :=
  if n < 26 then Char.ofNat ('A'.toNat + n)
  else if n < 52 then Char.ofNat ('a'.toNat + (n - 26))
  else if n < 62 then Char.ofNat ('0'.toNat + (n - 52))
  else if n = 62 then v.plus else v.slash

def Variant.sextet? (v : Variant) (c : Char) : Option Nat :=
  if 'A' ≤ c ∧ c ≤ 'Z' then some (c.toNat - 'A'.toNat)
  else if 'a' ≤ c ∧ c ≤ 'z' then some (c.toNat - 'a'.toNat + 26)
  else if '0' ≤ c ∧ c ≤ '9' then some (c.toNat - '0'.toNat + 52)
  else if c = v.plus then some 62
  else if c = v.slash then some 63
  else none

def Variant.pad (v : Variant) (k : Nat) : List Char := if v.padded then List.replicate k '=' else []

def encode (v : Variant) : Bytes → List Char
  | [] => []
  | [a] => [v.symbol (a.toNat / 4), v.symbol (a.toNat % 4 * 16)] ++ v.pad 2
  | [a, b] =>
    [v.symbol (a.toNat / 4), v.symbol (a.toNat % 4 * 16 + b.toNat / 16),
      v.symbol (b.toNat % 16 * 4)] ++ v.pad 1
  | a :: b :: c :: bs =>
    v.symbol (a.toNat / 4) :: v.symbol (a.toNat % 4 * 16 + b.toNat / 16) ::
      v.symbol (b.toNat % 16 * 4 + c.toNat / 64) :: v.symbol (c.toNat % 64) :: encode v bs

def lastByte? (v : Variant) (a b : Char) : Option Bytes := do
  let a ← v.sextet? a
  let b ← v.sextet? b
  if b % 16 = 0 then some [(a * 4 + b / 16).toUInt8] else none

def lastBytes? (v : Variant) (a b c : Char) : Option Bytes := do
  let a ← v.sextet? a
  let b ← v.sextet? b
  let c ← v.sextet? c
  if c % 4 = 0 then some [(a * 4 + b / 16).toUInt8, (b % 16 * 16 + c / 4).toUInt8] else none

def group? (v : Variant) (a b c d : Char) : Option Bytes := do
  let a ← v.sextet? a
  let b ← v.sextet? b
  let c ← v.sextet? c
  let d ← v.sextet? d
  some [(a * 4 + b / 16).toUInt8, (b % 16 * 16 + c / 4).toUInt8, (c % 4 * 64 + d).toUInt8]

def decode? (v : Variant) : List Char → Option Bytes
  | [] => some []
  | [_] => none
  | [a, b] => if v.padded then none else lastByte? v a b
  | [a, b, c] => if v.padded then none else lastBytes? v a b c
  | a :: b :: c :: d :: cs =>
    if v.padded && d == '=' then
      if cs ≠ [] then none
      else if c = '=' then lastByte? v a b
      else lastBytes? v a b c
    else do some ((← group? v a b c d) ++ (← decode? v cs))

end CorridorTrust.Base64
