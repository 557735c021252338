/-!
Finite binary64 numbers as exact naturals. A magnitude is `significand * 2 ^ exponent`, held in the
one form where the significand has 53 bits, or fewer at the least exponent. Quotients of naturals
round to the nearest magnitude, a tie to the even significand.
-/

namespace CorridorTrust.Decimal

structure Binary64 where
  negative : Bool
  significand : Nat
  exponent : Int
deriving DecidableEq, Repr

namespace Binary64

def leastExponent : Int := -1074

def greatestExponent : Int := 971

def isZero (x : Binary64) : Bool := x.significand == 0

def zero (negative : Bool) : Binary64 := ⟨negative, 0, leastExponent⟩

def shift (num den : Nat) (e : Int) : Nat × Nat :=
  if 0 ≤ e then (num * Nat.pow 2 e.toNat, den) else (num, den * Nat.pow 2 (-e).toNat)

def roundQuotient (num den : Nat) : Nat :=
  let q := num / den
  let r := num % den
  if 2 * r < den then q
  else if den < 2 * r then q + 1
  else q + q % 2

def binade (num den : Nat) : Int :=
  let e : Int := (Nat.log2 num : Int) - Nat.log2 den
  let (a, b) := shift num den (-e)
  if b ≤ a then e else e - 1

def ofRatio (negative : Bool) (num den : Nat) : Option Binary64 :=
  if num = 0 then some (zero negative)
  else
    let q := max (binade num den - 52) leastExponent
    let (a, b) := shift num den (-q)
    let m := roundQuotient a b
    let (m, q) := if m = Nat.pow 2 53 then (Nat.pow 2 52, q + 1) else (m, q)
    if q ≤ greatestExponent then some ⟨negative, m, q⟩ else none

def ratio (x : Binary64) : Nat × Nat := shift x.significand 1 x.exponent

def ofNat (n : Nat) : Option Binary64 := ofRatio false n 1

def neg (x : Binary64) : Binary64 := { x with negative := !x.negative }

def mul (x y : Binary64) : Option Binary64 :=
  ofRatio (x.negative != y.negative) (x.ratio.1 * y.ratio.1) (x.ratio.2 * y.ratio.2)

def div (x y : Binary64) : Option Binary64 :=
  ofRatio (x.negative != y.negative) (x.ratio.1 * y.ratio.2) (x.ratio.2 * y.ratio.1)

def powerOfTen (k : Nat) : Option Binary64 := ofNat (Nat.pow 10 k)

def ofDecimal (n : Nat) (e : Int) : Option Binary64 := do
  let x ← ofNat n
  if x.isZero then some x
  else if 0 ≤ e then
    if e ≤ 308 then x.mul (← powerOfTen e.toNat) else none
  else if -308 ≤ e then x.div (← powerOfTen (-e).toNat)
  else
    let y ← x.div (← powerOfTen 308)
    if -616 ≤ e then y.div (← powerOfTen (-e - 308).toNat) else some (zero false)

end Binary64

end CorridorTrust.Decimal
