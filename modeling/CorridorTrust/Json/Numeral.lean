import CorridorTrust.Decimal.Shortest

namespace CorridorTrust.Json

open Decimal

structure Numeral where
  negative : Bool
  whole : List Nat
  fraction : List Nat
  power : Option Int
deriving DecidableEq, Repr

inductive Number where
  | integer (n : Int)
  | double (x : Binary64)
deriving DecidableEq, Repr

namespace Numeral

def digitOf (c : Char) : Nat := c.toNat - '0'.toNat

def charOf (d : Nat) : Char := Char.ofNat ('0'.toNat + d)

def readDigits (cs : List Char) : List Nat × List Char :=
  ((cs.takeWhile Char.isDigit).map digitOf, cs.dropWhile Char.isDigit)

def readSign : List Char → Bool × List Char
  | '-' :: cs => (true, cs)
  | cs => (false, cs)

def readFraction : List Char → Option (List Nat × List Char)
  | '.' :: cs =>
    match readDigits cs with
    | ([], _) => none
    | (ds, rest) => some (ds, rest)
  | cs => some ([], cs)

def readPower : List Char → Option (Option Int)
  | [] => some none
  | e :: cs =>
    if e = 'e' ∨ e = 'E' then
      let (negative, cs) : Bool × List Char :=
        match cs with
        | '-' :: cs => (true, cs)
        | '+' :: cs => (false, cs)
        | cs => (false, cs)
      match readDigits cs with
      | ([], _) => none
      | (ds, []) => some (some (if negative then -(ofDigits ds : Int) else ofDigits ds))
      | _ => none
    else none

def read? (cs : List Char) : Option Numeral := do
  let (negative, cs) := readSign cs
  let (whole, cs) := readDigits cs
  if whole = [] ∨ (whole.head? = some 0 ∧ whole.length ≠ 1) then none
  let (fraction, cs) ← readFraction cs
  let power ← readPower cs
  some ⟨negative, whole, fraction, power⟩

def writeDigits (ds : List Nat) : List Char := ds.map charOf

def write (n : Numeral) : List Char :=
  (if n.negative then ['-'] else []) ++ writeDigits n.whole ++
  (if n.fraction = [] then [] else '.' :: writeDigits n.fraction) ++
  match n.power with
  | none => []
  | some k => 'e' :: (if k < 0 then '-' else '+') :: writeDigits (digits k.natAbs)

def accumulate (total : Nat) : List Nat → Nat × Nat
  | [] => (total, 0)
  | d :: ds =>
    if 10 * total + d < UInt64.size then accumulate (10 * total + d) ds else (total, ds.length + 1)

def double? (n : Numeral) : Option Binary64 :=
  let (a, missing) := accumulate 0 n.whole
  let (b, rest) := accumulate a n.fraction
  let power : Int := missing - (n.fraction.length - rest : Nat) + n.power.getD 0
  (Binary64.ofDecimal b power).map fun x => if n.negative then x.neg else x

/-- A numeral of whole digits alone is an integer where one of its range has that value and sign;
minus zero is a double. -/
def number? (n : Numeral) : Option Number :=
  let v := ofDigits n.whole
  if n.fraction = [] ∧ n.power = none ∧ !n.negative ∧ v < UInt64.size then some (.integer v)
  else if n.fraction = [] ∧ n.power = none ∧ n.negative ∧ 0 < v ∧ v ≤ UInt64.size / 2 then
    some (.integer (-v))
  else n.double?.map .double

end Numeral

namespace Number

/-- Powers of ten of the first digit from `-5` to `15` are written out, with a digit after the point. -/
def doubleNumeral (x : Binary64) : Numeral :=
  if x.isZero then ⟨x.negative, [0], [0], none⟩
  else
    let (ds, k) := x.shortest
    if k < -5 ∨ 15 < k then ⟨x.negative, ds.take 1, ds.drop 1, some k⟩
    else if k < 0 then ⟨x.negative, [0], List.replicate ((-k).toNat - 1) 0 ++ ds, none⟩
    else
      let size := k.toNat + 1
      if ds.length ≤ size then
        ⟨x.negative, ds ++ List.replicate (size - ds.length) 0, [0], none⟩
      else ⟨x.negative, ds.take size, ds.drop size, none⟩

def numeral : Number → Numeral
  | .integer n => ⟨n < 0, digits n.natAbs, [], none⟩
  | .double x => doubleNumeral x

end Number

end CorridorTrust.Json
