import CorridorTrust.Time.Date

namespace CorridorTrust.Time

structure Instant where
  seconds : Int
  nanos : Nat
deriving DecidableEq, Repr

namespace Instant

def before (a b : Instant) : Bool :=
  a.seconds < b.seconds || (a.seconds == b.seconds && a.nanos < b.nanos)

def padded (width n : Nat) : List Char :=
  match width with
  | 0 => []
  | width + 1 => padded width (n / 10) ++ [Nat.digitChar (n % 10)]

def writeYear (y : Int) : List Char :=
  let n := y.natAbs
  let ds := if n < 10000 then padded 4 n else Nat.toDigits 10 n
  if y < 0 then '-' :: ds else if y < 10000 then ds else '+' :: ds

def writeFraction (nanos : Nat) : List Char :=
  if nanos = 0 then []
  else if nanos % 1000000 = 0 then '.' :: padded 3 (nanos / 1000000)
  else if nanos % 1000 = 0 then '.' :: padded 6 (nanos / 1000)
  else '.' :: padded 9 nanos

def write (t : Instant) : List Char :=
  let d := Date.ofDays (t.seconds / 86400)
  let s := (t.seconds % 86400).toNat
  let leap := t.nanos / 1000000000
  writeYear d.year ++ '-' :: padded 2 d.month ++ '-' :: padded 2 d.day ++
  'T' :: padded 2 (s / 3600) ++ ':' :: padded 2 (s / 60 % 60) ++
  ':' :: padded 2 (s % 60 + leap) ++ writeFraction (t.nanos % 1000000000) ++ ['Z']

def toText (t : Instant) : String := String.ofList t.write

end Instant

end CorridorTrust.Time
