namespace CorridorTrust.Time

structure Date where
  year : Int
  month : Nat
  day : Nat
deriving DecidableEq, Repr

namespace Date

def isLeap (y : Int) : Bool := y % 4 == 0 && (y % 100 != 0 || y % 400 == 0)

def monthLength (y : Int) (m : Nat) : Nat :=
  if m = 2 then if isLeap y then 29 else 28
  else if m = 4 ∨ m = 6 ∨ m = 9 ∨ m = 11 then 30 else 31

def isValid (d : Date) : Bool :=
  1 ≤ d.month && d.month ≤ 12 && 1 ≤ d.day && d.day ≤ monthLength d.year d.month

def monthStart (index : Nat) : Nat := (153 * index + 2) / 5

def epochShift : Int := 719468

def toDays (d : Date) : Int :=
  let y := if d.month ≤ 2 then d.year - 1 else d.year
  let index := if d.month ≤ 2 then d.month + 9 else d.month - 3
  365 * y + y / 4 - y / 100 + y / 400 + (monthStart index + d.day - 1 : Nat) - epochShift

def ofDays (n : Int) : Date :=
  let z := n + epochShift
  let cycle := z / 146097
  let r := (z % 146097).toNat
  let century := min (r / 36524) 3
  let r := r - 36524 * century
  let group := r / 1461
  let r := r - 1461 * group
  let single := min (r / 365) 3
  let r := r - 365 * single
  let index := (5 * r + 2) / 153
  let y : Int := 400 * cycle + (100 * century + 4 * group + single : Nat)
  let day := r - monthStart index + 1
  if index < 10 then ⟨y, index + 3, day⟩ else ⟨y + 1, index - 9, day⟩

end Date

end CorridorTrust.Time
