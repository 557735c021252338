import CorridorTrust.Decimal.Binary64

/-!
The fewest decimal digits that read back as a given number. The reals that round to the number form
an interval, closed when the significand is even. Of the decimal grids with one digit, two digits
and so on, the first that has a point in the interval wins; of two points the nearer, and of two
equally near the even one.
-/

namespace CorridorTrust.Decimal

def digits (n : Nat) : List Nat :=
  if n < 10 then [n] else digits (n / 10) ++ [n % 10]
termination_by n

def ofDigits (ds : List Nat) : Nat := ds.foldl (fun n d => 10 * n + d) 0

namespace Binary64

structure Interval where
  low : Nat
  value : Nat
  high : Nat
  denominator : Nat
  closed : Bool

def interval (x : Binary64) : Interval :=
  let m := x.significand
  let narrow := m == Nat.pow 2 52 && leastExponent < x.exponent
  let (unit, den) := shift 1 4 x.exponent
  ⟨(4 * m - if narrow then 1 else 2) * unit, 4 * m * unit, (4 * m + 2) * unit, den, m % 2 == 0⟩

def Interval.holds (i : Interval) (n : Nat) (place : Int) : Bool :=
  let v := n * Nat.pow 10 place.toNat * i.denominator
  let s := Nat.pow 10 (-place).toNat
  if i.closed then i.low * s ≤ v && v ≤ i.high * s else i.low * s < v && v < i.high * s

def Interval.magnitude (i : Interval) : Int :=
  let whole := i.value / i.denominator
  if 0 < whole then ((digits whole).length : Int) - 1
  else
    let inverse := (i.denominator + i.value - 1) / i.value
    let k := (digits inverse).length
    if inverse = Nat.pow 10 (k - 1) then -((k : Int) - 1) else -(k : Int)

def Interval.neighbours (i : Interval) (place : Int) : List Nat :=
  let num := i.value * Nat.pow 10 (-place).toNat
  let den := i.denominator * Nat.pow 10 place.toNat
  let n := num / den
  let r := num % den
  if r = 0 then [n]
  else if 2 * r < den then [n, n + 1]
  else if den < 2 * r then [n + 1, n]
  else if n % 2 = 0 then [n, n + 1] else [n + 1, n]

/-- Digits and place of the first grid with a point in the interval, from `count` digits up. -/
def Interval.search (i : Interval) (count : Nat) : Nat → Nat × Int
  | 0 => (0, 0)
  | fuel + 1 =>
    let place := i.magnitude + 1 - count
    match (i.neighbours place).find? (i.holds · place) with
    | some n => (n, place)
    | none => i.search (count + 1) fuel

def shortest (x : Binary64) : List Nat × Int :=
  let (n, place) := x.interval.search 1 17
  let ds := digits n
  let kept := (ds.reverse.dropWhile (· == 0)).reverse
  (kept, place + ds.length - 1)

end Binary64

end CorridorTrust.Decimal
