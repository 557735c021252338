namespace CorridorTrust

abbrev Bytes := List UInt8

namespace Utf8

abbrev Symbol := Option Char

def encodeChar (c : Char) : Bytes :=
  let n := c.toNat
  if n < 0x80 then [n.toUInt8]
  else if n < 0x800 then [(0xC0 + n / 0x40).toUInt8, (0x80 + n % 0x40).toUInt8]
  else if n < 0x10000 then
    [(0xE0 + n / 0x1000).toUInt8, (0x80 + n / 0x40 % 0x40).toUInt8, (0x80 + n % 0x40).toUInt8]
  else
    [(0xF0 + n / 0x40000).toUInt8, (0x80 + n / 0x1000 % 0x40).toUInt8,
      (0x80 + n / 0x40 % 0x40).toUInt8, (0x80 + n % 0x40).toUInt8]

def encode (cs : List Char) : Bytes := cs.flatMap encodeChar

def ofString (s : String) : Bytes := encode s.toList

def isContinuation (b : UInt8) : Bool := 0x80 ≤ b.toNat && b.toNat < 0xC0

def scalar (least n : Nat) : Option Char :=
  if least ≤ n ∧ n.isValidChar then some (Char.ofNat n) else none

def pair (a b : UInt8) : Option Char :=
  if 0xC0 ≤ a.toNat ∧ a.toNat < 0xE0 ∧ isContinuation b then
    scalar 0x80 (a.toNat % 0x20 * 0x40 + b.toNat % 0x40)
  else none

def triple (a b c : UInt8) : Option Char :=
  if 0xE0 ≤ a.toNat ∧ a.toNat < 0xF0 ∧ isContinuation b ∧ isContinuation c then
    scalar 0x800 (a.toNat % 0x10 * 0x1000 + b.toNat % 0x40 * 0x40 + c.toNat % 0x40)
  else none

def quadruple (a b c d : UInt8) : Option Char :=
  if 0xF0 ≤ a.toNat ∧ a.toNat < 0xF8 ∧ isContinuation b ∧ isContinuation c ∧ isContinuation d then
    scalar 0x10000
      (a.toNat % 0x08 * 0x40000 + b.toNat % 0x40 * 0x1000 + c.toNat % 0x40 * 0x40 + d.toNat % 0x40)
  else none

def lead (a : UInt8) (s : Bytes) : Symbol × Nat :=
  if a.toNat < 0x80 then (some (Char.ofNat a.toNat), 0)
  else
    match s with
    | [] => (none, 0)
    | b :: s =>
      match pair a b, s with
      | some x, _ => (some x, 1)
      | none, [] => (none, 0)
      | none, c :: s =>
        match triple a b c, s with
        | some x, _ => (some x, 2)
        | none, [] => (none, 0)
        | none, d :: _ =>
          match quadruple a b c d with
          | some x => (some x, 3)
          | none => (none, 0)

def scanAfter : Nat → Bytes → List Symbol
  | _, [] => []
  | k + 1, _ :: s => scanAfter k s
  | 0, a :: s => (lead a s).1 :: scanAfter (lead a s).2 s

def scan (bs : Bytes) : List Symbol := scanAfter 0 bs

def decode? (bs : Bytes) : Option (List Char) := (scan bs).mapM id

def toString? (bs : Bytes) : Option String := (decode? bs).map String.ofList

end Utf8

end CorridorTrust
